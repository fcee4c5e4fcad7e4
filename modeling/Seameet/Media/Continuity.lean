import Seameet.Media.Sequence

/-!
# Audio lines are gap-free

A number is spent on a line whether or not the line has a stream to write to, so
what a client can miss is decided by the numbers that were assigned. On an audio
line they are counted in one place at a time: the slot that holds the line, or
the line's watermark while no slot does. A new slot takes the watermark over and
a departure leaves it behind, and an audio line changes hands in no other way.

Hence the numbers assigned on an audio line are the numbers below its counter,
in order, whoever held the line.
-/

namespace Seameet

open Library

/-- The packet an output assigned a number to, taken by a stream or not. -/
def Output.numbered : Output → Option RtpWrite
  | .rtp write | .rtpDropped write => some write
  | _ => none

/-- The numbers assigned on one line, in order. -/
def assignedOn (mid : Mid) (outputs : List Output) : List Nat :=
  ((outputs.filterMap Output.numbered).filter fun write => write.mid = mid).map RtpWrite.seq

/-- The numbers assigned on a line over two stretches are those of the first and then of the
second. -/
@[simp]
theorem assignedOn_append (mid : Mid) (first second : List Output) :
    assignedOn mid (first ++ second) = assignedOn mid first ++ assignedOn mid second := by
  simp [assignedOn]

/-- Inert outputs assign no number. -/
theorem assignedOn_inert (mid : Mid) {outputs : List Output} (inert : Inert outputs) :
    assignedOn mid outputs = [] := by
  have none : outputs.filterMap Output.numbered = [] := by
    refine List.filterMap_eq_nil_iff.mpr fun output member => ?_
    have concerns := inert output member
    cases output <;> simp [Output.inert] at concerns <;> rfl
  rw [assignedOn, none]
  rfl

/-- One number on one line. -/
theorem assignedOn_one (mid : Mid) {output : Output} {write : RtpWrite}
    (numbered : output.numbered = some write) :
    assignedOn mid [output] = if write.mid = mid then [write.seq] else [] := by
  simp only [assignedOn, List.filterMap_cons, numbered, List.filterMap_nil, List.filter_cons]
  split <;> simp_all

/-- Every audio line has assigned the numbers below its counter: its slot's, or
its watermark where no slot holds it. A line not listed yet has neither numbers
nor a mark. -/
structure Gapless (task : Task) (past : List Output) : Prop where
  counted : ∀ source slot, task.sourceSlots.lookup source = some slot →
    assignedOn slot.audioMid past = List.range slot.audioTxSeq
  marked : ∀ mid, (mid, MediaKind.audio) ∈ task.lines.allMids → mid ∉ usedMids task.sourceSlots →
    assignedOn mid past = List.range (watermarkOf task.midSeqWatermark mid)
  unlisted : ∀ mid, mid ∉ task.lines.allMids.map Prod.fst →
    assignedOn mid past = [] ∧ watermarkOf task.midSeqWatermark mid = 0

namespace Gapless

variable {task after : Task} {past outputs : List Output}

/-- Steps that assign no number, keep slots and watermarks and at most list new
lines. -/
theorem quiet (gapless : Gapless task past) (slots : after.sourceSlots = task.sourceSlots)
    (watermarks : after.midSeqWatermark = task.midSeqWatermark)
    (grown : task.lines.allMids ⊆ after.lines.allMids)
    (distinct : (after.lines.allMids.map Prod.fst).Nodup) (inert : Inert outputs) :
    Gapless after (past ++ outputs) := by
  obtain ⟨counted, marked, unlisted⟩ := gapless
  have same : ∀ mid, assignedOn mid (past ++ outputs) = assignedOn mid past := by
    intro mid
    rw [assignedOn_append, assignedOn_inert mid inert, List.append_nil]
  refine ⟨?_, ?_, ?_⟩
  · intro source slot stored
    rw [same]
    exact counted source slot (slots ▸ stored)
  · intro mid audio unused
    rw [same, watermarks]
    by_cases known : mid ∈ task.lines.allMids.map Prod.fst
    · obtain ⟨line, present, named⟩ := List.mem_map.mp known
      have kind : line = (mid, MediaKind.audio) :=
        List.inj_on_of_nodup_map distinct (grown present) audio named
      exact marked mid (kind ▸ present) (slots ▸ unused)
    · obtain ⟨none, zero⟩ := unlisted mid known
      rw [none, zero]
      rfl
  · intro mid unknown
    rw [same, watermarks]
    exact unlisted mid fun known => unknown (List.map_subset Prod.fst grown known)

/-- A slot that is created takes its audio line's watermark over. -/
theorem ensure (gapless : Gapless task past)
    (assigned : WellAssigned task.lines task.sourceSlots) (media : ForwardedMedia) :
    Gapless { task with sourceSlots := (task.ensureSlot media.sourcePid media.isScreen).2 }
      past := by
  obtain ⟨counted, marked, unlisted⟩ := gapless
  have extended := (assigned.ensure media.sourcePid task.ownAudioPt task.ownVideoPt
    task.midSeqWatermark media.isScreen).2
  refine ⟨?_, fun mid audio unused => marked mid audio (unused ∘ extended.used), unlisted⟩
  have outcome := getOrCreateSlot_outcome media.sourcePid task.sourceSlots task.lines
    task.ownAudioPt task.ownVideoPt task.midSeqWatermark media.isScreen
  simp only [Task.ensureSlot]
  generalize getOrCreateSlot media.sourcePid task.sourceSlots task.lines task.ownAudioPt
    task.ownVideoPt task.midSeqWatermark media.isScreen = result at outcome ⊢
  intro source slot stored
  cases outcome with
  | refused absent exhausted => exact counted source slot stored
  | kept former present settled =>
    simp only [Table.lookup_insert_eq] at stored
    split at stored
    · obtain rfl : former = slot := Option.some.inj stored
      exact counted media.sourcePid former present
    · exact counted source slot stored
  | gainedScreen former line present screen bare free =>
    simp only [Table.lookup_insert_eq] at stored
    split at stored
    · obtain rfl := Option.some.inj stored
      exact counted media.sourcePid former present
    · exact counted source slot stored
  | created audioLine videoLine absent freeAudio freeVideo =>
    simp only [Table.lookup_insert_eq] at stored
    split at stored
    · obtain rfl := Option.some.inj stored
      obtain ⟨listed, _, unused⟩ := freeAudio_spec freeAudio
      exact marked audioLine.1 listed unused
    · exact counted source slot stored

/-- Spending the next number of a use: an audio number continues its line, and a
video number is on no audio line. -/
theorem spend (gapless : Gapless task past)
    (assigned : WellAssigned task.lines task.sourceSlots) {source : ParticipantId}
    {slot : SourceSlot} {use : MediaUse} {output : Output} {write : RtpWrite}
    (stored : task.sourceSlots.lookup source = some slot)
    (lined : slot.line use = some write.mid) (seq : write.seq = slot.txSeq use)
    (numbered : output.numbered = some write) :
    Gapless { task with sourceSlots := task.sourceSlots.insert source (slot.advance use) }
      (past ++ [output]) := by
  obtain ⟨counted, marked, unlisted⟩ := gapless
  have holds : lineOf task.sourceSlots source use = some write.mid := by
    simp [lineOf, stored, lined]
  have elsewhere : ∀ mid, write.mid ≠ mid →
      assignedOn mid (past ++ [output]) = assignedOn mid past := by
    intro mid apart
    rw [assignedOn_append, assignedOn_one mid numbered, if_neg apart, List.append_nil]
  have others : ∀ other slot', task.sourceSlots.lookup other = some slot' →
      (other ≠ source ∨ use ≠ .audio) → write.mid ≠ slot'.audioMid := by
    intro other slot' present apart same
    have sound : lineOf task.sourceSlots other .audio = some write.mid := by
      simp [lineOf, present, SourceSlot.line, same]
    have one := assigned.exclusive (.source other .audio) (.source source use) write.mid sound holds
    obtain ⟨rfl, rfl⟩ : other = source ∧ MediaUse.audio = use := by simpa using one
    rcases apart with apart | apart <;> exact apart rfl
  refine ⟨?_, ?_, ?_⟩
  · intro other slot' present
    simp only [Table.lookup_insert_eq] at present
    split at present
    · rename_i here
      obtain rfl := Option.some.inj present
      by_cases audio : use = .audio
      · subst audio
        have own : slot.audioMid = write.mid := Option.some.inj lined
        change assignedOn slot.audioMid (past ++ [output]) = List.range (slot.audioTxSeq + 1)
        rw [assignedOn_append, counted source slot stored, assignedOn_one _ numbered,
          if_pos own.symm, seq, List.range_succ]
        rfl
      · have same : (slot.advance use).audioMid = slot.audioMid ∧
            (slot.advance use).audioTxSeq = slot.audioTxSeq := by
          cases use with
          | audio => exact absurd rfl audio
          | video => exact ⟨rfl, rfl⟩
          | screen => exact ⟨rfl, rfl⟩
        rw [same.1, same.2, elsewhere _ (others source slot stored (Or.inr audio))]
        exact counted source slot stored
    · rename_i apart
      rw [elsewhere _ (others other slot' present (Or.inl apart))]
      exact counted other slot' present
  · intro mid audio unused
    have unmoved := lineOf_restore stored (line_advance slot use)
    have before : mid ∉ usedMids task.sourceSlots := by
      refine unused ∘ Extends.used fun pid use mid holds => ?_
      exact (unmoved pid use).trans holds
    rw [elsewhere mid (by rintro rfl; exact before (used_of_lineOf holds))]
    exact marked mid audio before
  · intro mid unknown
    have listed : write.mid ∈ task.lines.allMids.map Prod.fst :=
      List.mem_map.mpr ⟨_, assigned.listed (.source source use) write.mid holds, rfl⟩
    rw [elsewhere mid (by rintro rfl; exact unknown listed)]
    exact unlisted mid unknown

/-- Forwarding one packet. -/
theorem write (gapless : Gapless task past)
    (assigned : WellAssigned task.lines task.sourceSlots) (rtc : Rtc) (media : ForwardedMedia) :
    Gapless (task.writeForwardedRtp rtc media).1 (past ++ (task.writeForwardedRtp rtc media).2) := by
  have ready := gapless.ensure assigned media
  have lines := (assigned.ensure media.sourcePid task.ownAudioPt task.ownVideoPt
    task.midSeqWatermark media.isScreen).1
  change WellAssigned task.lines (task.ensureSlot media.sourcePid media.isScreen).2 at lines
  have outcome := task.writeForwardedRtp_outcome rtc media
  generalize task.writeForwardedRtp rtc media = result at outcome ⊢
  cases outcome with
  | refused noSlot => simpa using gapless
  | unlined slot slots ensured missing =>
    rw [ensured] at ready
    simpa using ready
  | sent slot slots mid ensured lined =>
    have stored : slots.lookup media.sourcePid = some slot := Task.ensureSlot_stored ensured
    rw [ensured] at ready lines
    let write : RtpWrite :=
      { mid, pt := slot.pt media.use, seq := slot.txSeq media.use, packet := media }
    have numbered : (if rtc.streamTx mid then Output.rtp write else .rtpDropped write).numbered =
        some write := by
      split <;> rfl
    exact ready.spend lines stored lined rfl numbered

/-- Announcing a source. -/
theorem announce (gapless : Gapless task past)
    (assigned : WellAssigned task.lines task.sourceSlots) (rtc : Rtc) (source : ParticipantId)
    (createdNew gained : Bool) :
    Gapless (task.announceSource rtc source createdNew gained).1
      (past ++ (task.announceSource rtc source createdNew gained).2) := by
  obtain ⟨pending, framed⟩ := task.announceSource_frame rtc source createdNew gained
  refine gapless.quiet ?_ ?_ ?_ ?_ (task.announceSource_inert rtc source createdNew gained)
  · rw [framed]
  · rw [framed]
  · rw [framed]
    exact List.Subset.refl _
  · rw [framed]
    exact assigned.distinct

/-- A `Media` command. -/
theorem forward (gapless : Gapless task past)
    (assigned : WellAssigned task.lines task.sourceSlots) (rtc : Rtc) (media : ForwardedMedia) :
    Gapless (task.forward rtc media).1 (past ++ (task.forward rtc media).2) := by
  have sent : ∀ {origin : Task} (createdNew gained : Bool), Gapless origin past →
      WellAssigned origin.lines origin.sourceSlots →
      Gapless
        ((origin.writeForwardedRtp rtc media).1.announceSource rtc media.sourcePid
          createdNew gained).1
        (past ++ ((origin.writeForwardedRtp rtc media).2 ++
          ((origin.writeForwardedRtp rtc media).1.announceSource rtc media.sourcePid
            createdNew gained).2)) := by
    intro origin createdNew gained gapless assigned
    have standing : Forwarding origin.sourceSlots origin [] := ⟨assigned, Extends.refl _, by simp⟩
    rw [← List.append_assoc]
    exact (gapless.write assigned rtc media).announce (standing.write rtc media).assigned rtc
      media.sourcePid createdNew gained
  have outcome := task.forward_outcome rtc media
  generalize task.forward rtc media = result at outcome ⊢
  cases outcome with
  | muted audio silenced => simpa using gapless
  | parked heard absent noSlot =>
    have framed : (task.park media).lines = task.lines ∧
        (task.park media).sourceSlots = task.sourceSlots ∧
        (task.park media).midSeqWatermark = task.midSeqWatermark := by
      simp only [Task.park]
      split <;> exact ⟨rfl, rfl, rfl⟩
    refine gapless.quiet framed.2.1 framed.2.2 ?_ ?_ inert_nil
    · rw [framed.1]
      exact List.Subset.refl _
    · rw [framed.1]
      exact assigned.distinct
  | live heard slot stored gained => exact sent false gained gapless assigned
  | opened heard slot slots opening absent ensured changed stored gained =>
    have same : (task.ensureSlot media.sourcePid media.isScreen).2 = slots := by rw [ensured]
    have ready := gapless.ensure assigned media
    have lines := (assigned.ensure media.sourcePid task.ownAudioPt task.ownVideoPt
      task.midSeqWatermark media.isScreen).1
    change WellAssigned task.lines (task.ensureSlot media.sourcePid media.isScreen).2 at lines
    rw [same] at ready lines
    subst changed
    exact sent true gained ready lines

/-- Flushing buffered packets. -/
theorem flush (gapless : Gapless task past)
    (assigned : WellAssigned task.lines task.sourceSlots) (rtc : Rtc)
    (sources : List ParticipantId) :
    Gapless (Task.flush rtc task sources).1 (past ++ (Task.flush rtc task sources).2) ∧
      WellAssigned (Task.flush rtc task sources).1.lines
        (Task.flush rtc task sources).1.sourceSlots := by
  let law : Task → List Output → Prop := fun task past =>
    Gapless task past ∧ WellAssigned task.lines task.sourceSlots
  refine Task.flush_keeps (Task.OnFlushed.of_forall (fun _ _ _ => trivial) rtc task past sources)
    law (fun _ => True) (fun _ _ _ _ _ _ _ _ => trivial) ?_ ?_ ?_ ⟨gapless, assigned⟩
  · intro task past source standing
    have dropped : Gapless { task with pendingMedia := task.pendingMedia.erase source }
        (past ++ []) :=
      standing.1.quiet rfl rfl (List.Subset.refl _) standing.2.distinct inert_nil
    rw [List.append_nil] at dropped
    exact ⟨dropped, standing.2⟩
  · intro task past outputs inert standing
    exact ⟨standing.1.quiet rfl rfl (List.Subset.refl _) standing.2.distinct inert, standing.2⟩
  · intro task past media standing _ _
    have forwarding : Forwarding task.sourceSlots task [] := ⟨standing.2, Extends.refl _, by simp⟩
    exact ⟨standing.1.write standing.2 rtc media, (forwarding.write rtc media).assigned⟩

/-- A renegotiation lists lines, then forwards what waits. -/
theorem renegotiate (gapless : Gapless task past)
    (assigned : WellAssigned task.lines task.sourceSlots) (rtc : Rtc) (sdp : String) :
    Gapless (task.renegotiate rtc sdp).1 (past ++ (task.renegotiate rtc sdp).2) := by
  obtain ⟨lines, pending, framed, grown⟩ := task.negotiated_frame rtc sdp
  have adopted := task.negotiated_assigned rtc sdp assigned
  have learnt : Gapless (task.negotiated rtc sdp)
      (past ++ [(task.handleRenegotiation rtc sdp).2.2]) :=
    gapless.quiet (by rw [framed]) (by rw [framed]) (by rw [framed]; exact grown)
      adopted.distinct (task.handleRenegotiation_inert rtc sdp)
  obtain ⟨flushed, still⟩ := learnt.flush adopted rtc
    (rtc.arrange (task.negotiated rtc sdp).pendingMedia.keys)
  have asked := flushed.quiet rfl rfl (List.Subset.refl _) still.distinct
    ((Task.requestOwn_inert rtc (task.renegotiate rtc sdp).1.lines.ownVideoMid).append
      ((task.renegotiate rtc sdp).1.requestAllKeyframes_inert rtc))
  have order : past ++ (task.renegotiate rtc sdp).2 =
      past ++ [(task.handleRenegotiation rtc sdp).2.2] ++
        (Task.flush rtc (task.negotiated rtc sdp)
          (rtc.arrange (task.negotiated rtc sdp).pendingMedia.keys)).2 ++
        (Task.requestOwn rtc (task.renegotiate rtc sdp).1.lines.ownVideoMid ++
          (task.renegotiate rtc sdp).1.requestAllKeyframes rtc) := by
    simp only [Task.renegotiate, List.append_assoc]
  rw [order]
  exact asked

/-- A departure leaves the counter of its audio line as the line's mark, and
marks no line that is not listed. -/
theorem peerLeft (gapless : Gapless task past)
    (assigned : WellAssigned task.lines task.sourceSlots) (source : ParticipantId) :
    Gapless (task.peerLeft source) past := by
  obtain ⟨counted, marked, unlisted⟩ := gapless
  refine ⟨?_, ?_, ?_⟩
  · intro other slot stored
    simp only [Task.peerLeft, Table.lookup_erase_eq] at stored
    split at stored
    · simp at stored
    · exact counted other slot stored
  · intro mid audio unused
    rcases Task.peerLeft_audio assigned source audio unused with
      ⟨slot, stored, rfl, saved⟩ | ⟨before, kept⟩
    · rw [saved]
      exact counted source slot stored
    · rw [kept]
      exact marked mid audio before
  · intro mid unknown
    obtain ⟨none, zero⟩ := unlisted mid unknown
    refine ⟨none, ?_⟩
    cases stored : task.sourceSlots.lookup source with
    | none => simpa [Task.peerLeft, stored] using zero
    | some slot =>
      have other : ∀ use line, slot.line use = some line → mid ≠ line := by
        rintro use line lined rfl
        refine unknown (List.mem_map.mpr ⟨_, assigned.listed (.source source use) mid ?_, rfl⟩)
        simp [held, lineOf, stored, lined]
      unfold watermarkOf at zero
      simp only [Task.peerLeft, stored, watermarkOf]
      cases screened : slot.screenMid with
      | none =>
        simpa only [Table.lookup_insert_eq, if_neg (other .audio _ rfl),
          if_neg (other .video _ rfl)] using zero
      | some screen =>
        simpa only [Table.lookup_insert_eq, if_neg (other .audio _ rfl),
          if_neg (other .video _ rfl), if_neg (other .screen _ screened)] using zero

/-- A stopped share frees no audio line. -/
theorem sourceScreenStopped (gapless : Gapless task past)
    (assigned : WellAssigned task.lines task.sourceSlots) (source : ParticipantId) :
    Gapless (task.sourceScreenStopped source) past := by
  obtain ⟨counted, marked, unlisted⟩ := gapless
  refine ⟨?_, ?_, unlisted⟩
  · intro other slot stored
    simp only [Task.sourceScreenStopped, Table.lookup_modify] at stored
    split at stored
    · obtain ⟨former, present, rfl⟩ := Option.map_eq_some_iff.mp stored
      exact counted source former present
    · exact counted other slot stored
  · intro mid audio unused
    exact marked mid audio (Task.sourceScreenStopped_audio assigned source audio unused)

/-- Every turn. -/
theorem turn (gapless : Gapless task past)
    (assigned : WellAssigned task.lines task.sourceSlots) (input : Rtc × Task.Turn) :
    Gapless (task.turn input).1 (past ++ (task.turn input).2) := by
  have still := (task.turn_turned assigned input).assigned
  obtain ⟨rtc, taken⟩ := input
  cases taken with
  | drained events =>
    obtain ⟨slots, watermarks, _, grown, _⟩ := task.drainOutputs_quiet rtc events
    exact gapless.quiet slots watermarks grown still.distinct (task.drainOutputs_inert rtc events)
  | command cmd =>
    have idle : Task.idle cmd = true →
        Gapless (task.handle rtc cmd).1 (past ++ (task.handle rtc cmd).2) := by
      intro unconcerned
      obtain ⟨lines, slots, watermarks, _, _⟩ := task.handle_idle rtc cmd unconcerned
      refine gapless.quiet slots watermarks ?_ still.distinct (task.handle_inert rtc cmd unconcerned)
      rw [lines]
      exact List.Subset.refl _
    cases cmd with
    | media packet => exact gapless.forward assigned rtc packet
    | renegotiationOffer sdp => exact gapless.renegotiate assigned rtc sdp
    | screenShareActive active =>
      cases active <;>
        exact gapless.quiet rfl rfl (List.Subset.refl _) still.distinct inert_nil
    | peerLeft source =>
      change Gapless (task.peerLeft source) (past ++ [])
      rw [List.append_nil]
      exact gapless.peerLeft assigned source
    | sourceScreenStopped source =>
      change Gapless (task.sourceScreenStopped source) (past ++ [])
      rw [List.append_nil]
      exact gapless.sourceScreenStopped assigned source
    | _ => exact idle rfl

/-- The numbers assigned on a line that is not a video line are those below some
counter. -/
theorem ranged (gapless : Gapless task past)
    (assigned : WellAssigned task.lines task.sourceSlots) {mid : Mid}
    (sound : (mid, MediaKind.video) ∉ task.lines.allMids) :
    ∃ count, assignedOn mid past = List.range count := by
  obtain ⟨counted, marked, unlisted⟩ := gapless
  by_cases known : mid ∈ task.lines.allMids.map Prod.fst
  · obtain ⟨⟨mid, kind⟩, present, rfl⟩ := List.mem_map.mp known
    cases kind with
    | video => exact absurd present sound
    | audio =>
      by_cases used : mid ∈ usedMids task.sourceSlots
      · obtain ⟨source, use, holds⟩ := (used_iff_lineOf _ mid).mp used
        have kind := assigned.one_kind present (assigned.listed (.source source use) mid holds)
        obtain ⟨slot, stored, lined⟩ := Option.bind_eq_some_iff.mp holds
        cases use with
        | audio =>
          obtain rfl := Option.some.inj lined
          exact ⟨_, counted source slot stored⟩
        | video => simp [LineUse.kind, MediaUse.kind] at kind
        | screen => simp [LineUse.kind, MediaUse.kind] at kind
      · exact ⟨_, marked mid present used⟩
  · exact ⟨0, (unlisted mid known).1⟩

/-- Before the first turn no number was assigned. -/
theorem start (pid : ParticipantId) (ownAudioPt ownVideoPt : Nat) (roomId : RoomId) (now : Nat)
    (answer : SdpAnswer) :
    Gapless (Task.start pid ownAudioPt ownVideoPt roomId now answer) [] := by
  obtain ⟨slots, _⟩ := Task.start_fresh pid ownAudioPt ownVideoPt roomId now answer
  have marks := Task.start_unmarked pid ownAudioPt ownVideoPt roomId now answer
  refine ⟨?_, ?_, ?_⟩
  · intro source slot stored
    simp [slots] at stored
  · intro mid _ _
    rw [marks]
    rfl
  · intro mid _
    rw [marks]
    exact ⟨rfl, rfl⟩

end Gapless

namespace Task

/-- In every run the numbers assigned on a line that is not a video line are
0, 1, 2 and so on without a gap, over all sources that held the line.

The numbers that were assigned are those below the counter of the line, each once. A line
that is not a video line has one counter for all the sources that hold it. -/
theorem audio_numbers_continuous (pid : ParticipantId) (ownAudioPt ownVideoPt : Nat)
    (roomId : RoomId) (now : Nat) (answer : SdpAnswer) (turns : List (Rtc × Turn)) (mid : Mid)
    (sound : (mid, MediaKind.video) ∉
      (run (start pid ownAudioPt ownVideoPt roomId now answer) turns).1.lines.allMids) :
    let assigned := assignedOn mid
      (run (start pid ownAudioPt ownVideoPt roomId now answer) turns).2
    assigned = List.range assigned.length := by
  let law : Task → List Output → Prop := fun task past =>
    Gapless task past ∧ WellAssigned task.lines task.sourceSlots
  have reached : law (run (start pid ownAudioPt ownVideoPt roomId now answer) turns).1
      ([] ++ (run (start pid ownAudioPt ownVideoPt roomId now answer) turns).2) :=
    traced_keeps law turns
      (fun task past input _ standing =>
        ⟨standing.1.turn standing.2 input, (task.turn_turned standing.2 input).assigned⟩)
      _ [] ⟨Gapless.start .., start_assigned pid ownAudioPt ownVideoPt roomId now answer⟩
  rw [List.nil_append] at reached
  obtain ⟨count, same⟩ := reached.1.ranged reached.2 sound
  simp only [same, List.length_range]

/-- One source leaves and another takes its line over; a packet for which the
line has no stream spends its number too. -/
theorem audio_numbers_continuous_takeover :
    let turns : List (Rtc × Turn) :=
      [(Rtc.plain (fun _ => none) 0, .command (.media (.sound ⟨1⟩ 0))),
        ({ Rtc.plain (fun _ => none) 0 with streamTx := fun _ => false },
          .command (.media (.sound ⟨1⟩ 1))),
        (Rtc.plain (fun _ => none) 0, .command (.peerLeft ⟨1⟩)),
        (Rtc.plain (fun _ => none) 0, .command (.media (.sound ⟨2⟩ 0)))]
    let assigned := assignedOn ⟨"2"⟩ (run (start ⟨0⟩ 111 96 "room" 0 twoPairs) turns).2
    assigned = List.range assigned.length :=
  audio_numbers_continuous ⟨0⟩ 111 96 "room" 0 twoPairs _ ⟨"2"⟩ (by decide +kernel)

end Task

end Seameet

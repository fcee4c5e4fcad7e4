import Seameet.Media.Assignment

/-!
# Sequence numbers of a media line

Each use of a slot counts its own numbers, and a line passes from use to use.
Within one use the counter moves past every number it hands out. What has to be
shown is that a line's next use starts beyond the numbers of its former uses.

A departing source leaves its counters behind as watermarks, and a new slot's
camera pair starts from them, so an audio line never repeats a number: audio
lines are only ever freed by departures. Video lines do repeat. A slot's screen
line starts from the slot's own screen counter, whatever the line carried
before, and a stopped screen share frees its line without leaving a watermark.
The numbers increase in every run in which each video line that is taken up is
taken up with a counter beyond the numbers it carried.
-/

namespace Seameet

open Library

/-- The numbers handed to the connection on one line, in order. -/
def seqsOn (mid : Mid) (outputs : List Output) : List Nat :=
  ((writes outputs).filter fun write => write.mid = mid).map RtpWrite.seq

/-- Every number a line carried so far lies below the counter. -/
def Below (past : List Output) (mid : Mid) (counter : Nat) : Prop :=
  ∀ write ∈ writes past, write.mid = mid → write.seq < counter

instance (past : List Output) (mid : Mid) (counter : Nat) : Decidable (Below past mid counter) :=
  inferInstanceAs (Decidable (∀ write ∈ writes past, write.mid = mid → write.seq < counter))

namespace Task

/-- If the packet makes the task take up a video line, the counter it is taken
up with is beyond the numbers the line carried: the line's watermark for a new
slot's camera, the slot's screen counter for a screen. -/
def TakenUp (task : Task) (past : List Output) (media : ForwardedMedia) : Prop :=
  match task.lines.freeVideo task.sourceSlots with
  | none => True
  | some line =>
      match task.sourceSlots.lookup media.sourcePid with
      | none =>
          (task.lines.freeAudio task.sourceSlots).isSome →
            Below past line.1 (watermarkOf task.midSeqWatermark line.1)
      | some slot =>
          media.isScreen = true → slot.screenMid = none → Below past line.1 slot.screenTxSeq

instance (task : Task) (past : List Output) (media : ForwardedMedia) :
    Decidable (task.TakenUp past media) := by
  unfold TakenUp
  split
  · infer_instance
  · split <;> infer_instance

end Task

/-- The numbers of a run so far increase on every line, lie below the counter of
the use a line has now and, on an audio line without use, below its watermark;
and packets went out on listed lines only. -/
structure Numbered (task : Task) (past : List Output) : Prop where
  increasing : ∀ mid, (seqsOn mid past).Pairwise (· < ·)
  counted : ∀ source slot use mid, task.sourceSlots.lookup source = some slot →
    slot.line use = some mid → Below past mid (slot.txSeq use)
  marked : ∀ mid, (mid, MediaKind.audio) ∈ task.lines.allMids → mid ∉ usedMids task.sourceSlots →
    Below past mid (watermarkOf task.midSeqWatermark mid)
  listed : ∀ write ∈ writes past, write.mid ∈ task.lines.allMids.map Prod.fst

namespace Task

variable {task : Task} (assigned : WellAssigned task.lines task.sourceSlots)
include assigned

/-- An audio line that is free after a departure was the departed source's, whose
counter is left as its mark, or was free before and keeps its mark: the slot's
video lines are other lines. -/
theorem peerLeft_audio (source : ParticipantId) {mid : Mid}
    (audio : (mid, MediaKind.audio) ∈ task.lines.allMids)
    (unused : mid ∉ usedMids (task.peerLeft source).sourceSlots) :
    (∃ slot, task.sourceSlots.lookup source = some slot ∧ slot.audioMid = mid ∧
        watermarkOf (task.peerLeft source).midSeqWatermark mid = slot.audioTxSeq) ∨
      (mid ∉ usedMids task.sourceSlots ∧
        watermarkOf (task.peerLeft source).midSeqWatermark mid =
          watermarkOf task.midSeqWatermark mid) := by
  have freed : ∀ pid use, pid ≠ source → lineOf task.sourceSlots pid use ≠ some mid := by
    intro pid use stays holds
    have kept : lineOf (task.peerLeft source).sourceSlots pid use = some mid := by
      simpa only [peerLeft, lineOf, Table.lookup_erase_eq, if_neg stays] using holds
    exact unused (used_of_lineOf kept)
  cases stored : task.sourceSlots.lookup source with
  | none =>
    refine Or.inr ⟨?_, by simp [peerLeft, stored]⟩
    intro used
    obtain ⟨pid, use, holds⟩ := (used_iff_lineOf _ mid).mp used
    by_cases same : pid = source
    · subst same
      simp [lineOf, stored] at holds
    · exact freed pid use same holds
  | some slot =>
    have other : ∀ video, slot.line .video = some video ∨ slot.line .screen = some video →
        mid ≠ video := by
      rintro video held rfl
      have picture : (mid, MediaKind.video) ∈ task.lines.allMids := by
        rcases held with camera | screen
        · exact assigned.listed (.source source .video) mid (by simp [held, lineOf, stored, camera])
        · exact assigned.listed (.source source .screen) mid
            (by simp [held, lineOf, stored, screen])
      exact absurd (assigned.one_kind audio picture) (by simp)
    have saved : watermarkOf (task.peerLeft source).midSeqWatermark mid =
        if mid = slot.audioMid then slot.audioTxSeq else watermarkOf task.midSeqWatermark mid := by
      have notCamera : mid ≠ slot.videoMid := other slot.videoMid (Or.inl rfl)
      simp only [peerLeft, stored, watermarkOf]
      cases screened : slot.screenMid with
      | none =>
        simp only [Table.lookup_insert_eq, if_neg notCamera]
        split <;> rfl
      | some screen =>
        have notScreen : mid ≠ screen := other screen (Or.inr screened)
        simp only [Table.lookup_insert_eq, if_neg notScreen, if_neg notCamera]
        split <;> rfl
    by_cases here : mid = slot.audioMid
    · exact Or.inl ⟨slot, rfl, here.symm, by rw [saved, if_pos here]⟩
    · refine Or.inr ⟨?_, by rw [saved, if_neg here]⟩
      intro used
      obtain ⟨pid, use, holds⟩ := (used_iff_lineOf _ mid).mp used
      by_cases same : pid = source
      · subst same
        have lined : slot.line use = some mid := by simpa [lineOf, stored] using holds
        cases use with
        | audio => exact here (Option.some.inj lined).symm
        | video => exact other mid (Or.inl lined) rfl
        | screen => exact other mid (Or.inr lined) rfl
      · exact freed pid use same holds

/-- A stopped share frees no audio line. -/
theorem sourceScreenStopped_audio (source : ParticipantId) {mid : Mid}
    (audio : (mid, MediaKind.audio) ∈ task.lines.allMids)
    (unused : mid ∉ usedMids (task.sourceScreenStopped source).sourceSlots) :
    mid ∉ usedMids task.sourceSlots := by
  intro used
  obtain ⟨pid, use, holds⟩ := (used_iff_lineOf _ mid).mp used
  have sound : use ≠ .screen := by
    rintro rfl
    have screen := assigned.listed (.source pid .screen) mid holds
    exact absurd (assigned.one_kind audio screen) (by simp [LineUse.kind, MediaUse.kind])
  have kept := (task.sourceScreenStopped_turned assigned source fun _ => False).kept pid use mid
    holds sound id
  exact unused (used_of_lineOf kept)

end Task

/-- Outputs that hand nothing over leave the numbers as they are. -/
theorem seqsOn_quiet (mid : Mid) (past outputs : List Output) (silent : writes outputs = []) :
    seqsOn mid (past ++ outputs) = seqsOn mid past := by
  simp [seqsOn, silent]

/-- Outputs that write nothing leave every bound on a counter as it was. -/
theorem below_quiet (past outputs : List Output) (silent : writes outputs = []) (mid : Mid)
    (counter : Nat) : Below (past ++ outputs) mid counter ↔ Below past mid counter := by
  simp [Below, silent]

/-- A use of a line other than the sent one keeps its bound. -/
theorem Below.other {past : List Output} {mid sent : Mid} {counter : Nat} {output : Output}
    (below : Below past mid counter) (apart : mid ≠ sent)
    (only : ∀ write ∈ writes [output], write.mid = sent) : Below (past ++ [output]) mid counter := by
  intro write member same
  rw [writes_append, List.mem_append] at member
  rcases member with earlier | now
  · exact below write earlier same
  · exact absurd (same.symm.trans (only write now)) apart

namespace Numbered

variable {task after : Task} {past outputs : List Output}

/-- Only what was handed over counts. -/
theorem of_writes {record : List Output} (numbered : Numbered task past)
    (same : writes record = writes past) : Numbered task record := by
  obtain ⟨increasing, counted, marked, listed⟩ := numbered
  refine ⟨?_, ?_, ?_, ?_⟩
  · simpa only [seqsOn, same] using increasing
  · simpa only [Below, same] using counted
  · simpa only [Below, same] using marked
  · simpa only [same] using listed

/-- Steps that hand nothing over, keep slots and watermarks and at most list new
lines: a new line carried nothing yet. -/
theorem quiet (numbered : Numbered task past) (slots : after.sourceSlots = task.sourceSlots)
    (watermarks : after.midSeqWatermark = task.midSeqWatermark)
    (grown : ∀ line ∈ task.lines.allMids, line ∈ after.lines.allMids)
    (distinct : (after.lines.allMids.map Prod.fst).Nodup) (silent : writes outputs = []) :
    Numbered after (past ++ outputs) := by
  obtain ⟨increasing, counted, marked, listed⟩ := numbered
  refine ⟨?_, ?_, ?_, ?_⟩
  · intro mid
    rw [seqsOn_quiet mid past outputs silent]
    exact increasing mid
  · intro source slot use mid stored lined
    rw [below_quiet past outputs silent]
    exact counted source slot use mid (slots ▸ stored) lined
  · intro mid audio unused
    rw [below_quiet past outputs silent, watermarks]
    intro write member same
    obtain ⟨line, present, named⟩ := List.mem_map.mp (listed write member)
    have kind : line = (mid, MediaKind.audio) :=
      List.inj_on_of_nodup_map distinct (grown line present) audio (named.trans same)
    exact marked mid (kind ▸ present) (slots ▸ unused) write member same
  · intro write member
    rw [writes_append, silent, List.append_nil] at member
    obtain ⟨line, present, named⟩ := List.mem_map.mp (listed write member)
    exact List.mem_map.mpr ⟨line, grown line present, named⟩

/-- Taking up lines with counters beyond what they carried. Audio lines without
use start from their watermark. -/
theorem ensure (numbered : Numbered task past)
    (assigned : WellAssigned task.lines task.sourceSlots) (media : ForwardedMedia)
    (takenUp : task.TakenUp past media) :
    Numbered { task with sourceSlots := (task.ensureSlot media.sourcePid media.isScreen).2 }
      past := by
  obtain ⟨increasing, counted, marked, listed⟩ := numbered
  have extended := (assigned.ensure media.sourcePid task.ownAudioPt task.ownVideoPt
    task.midSeqWatermark media.isScreen).2
  refine ⟨increasing, ?_, fun mid audio unused => marked mid audio (unused ∘ extended.used), listed⟩
  have outcome := getOrCreateSlot_outcome media.sourcePid task.sourceSlots task.lines
    task.ownAudioPt task.ownVideoPt task.midSeqWatermark media.isScreen
  simp only [Task.ensureSlot]
  generalize getOrCreateSlot media.sourcePid task.sourceSlots task.lines task.ownAudioPt
    task.ownVideoPt task.midSeqWatermark media.isScreen = result at outcome ⊢
  intro source slot use mid stored lined
  cases outcome with
  | refused absent exhausted => exact counted source slot use mid stored lined
  | kept former present settled =>
    simp only [Table.lookup_insert_eq] at stored
    split at stored
    · rename_i here
      obtain rfl : former = slot := Option.some.inj stored
      exact counted source former use mid (here ▸ present) lined
    · exact counted source slot use mid stored lined
  | gainedScreen former line present screen bare free =>
    simp only [Table.lookup_insert_eq] at stored
    split at stored
    · rename_i here
      obtain rfl := Option.some.inj stored
      cases use with
      | audio => exact counted source former .audio mid (here ▸ present) lined
      | video => exact counted source former .video mid (here ▸ present) lined
      | screen =>
        obtain rfl : line.1 = mid := Option.some.inj lined
        simp only [Task.TakenUp, free, present] at takenUp
        exact takenUp screen bare
    · exact counted source slot use mid stored lined
  | created audioLine videoLine absent freeAudio freeVideo =>
    simp only [Table.lookup_insert_eq] at stored
    split at stored
    · obtain rfl := Option.some.inj stored
      cases use with
      | audio =>
        obtain rfl : audioLine.1 = mid := Option.some.inj lined
        obtain ⟨present, _, unused⟩ := freeAudio_spec freeAudio
        exact marked audioLine.1 present unused
      | video =>
        obtain rfl : videoLine.1 = mid := Option.some.inj lined
        simp only [Task.TakenUp, freeVideo, absent] at takenUp
        exact takenUp (by simp [freeAudio])
      | screen => simp [SourceSlot.line] at lined
    · exact counted source slot use mid stored lined

/-- Handing out the next number of a use: it is beyond all numbers of its line,
and no other use has that line. -/
theorem spend (numbered : Numbered task past)
    (assigned : WellAssigned task.lines task.sourceSlots) {source : ParticipantId}
    {slot : SourceSlot} {use : MediaUse} {mid : Mid} {output : Output}
    (stored : task.sourceSlots.lookup source = some slot) (lined : slot.line use = some mid)
    (only : ∀ write ∈ writes [output], write.mid = mid ∧ write.seq = slot.txSeq use) :
    Numbered { task with sourceSlots := task.sourceSlots.insert source (slot.advance use) }
      (past ++ [output]) := by
  obtain ⟨increasing, counted, marked, listed⟩ := numbered
  have below : Below past mid (slot.txSeq use) := counted source slot use mid stored lined
  have holds : lineOf task.sourceSlots source use = some mid := by simp [lineOf, stored, lined]
  have sentOn : ∀ write ∈ writes [output], write.mid = mid := fun write now => (only write now).1
  have unmoved := lineOf_restore stored (line_advance slot use)
  refine ⟨?_, ?_, ?_, ?_⟩
  · intro other
    simp only [seqsOn, writes_append, List.filter_append, List.map_append]
    rw [List.pairwise_append]
    refine ⟨increasing other, ?_, ?_⟩
    · cases written : output.written with
      | none => simp [writes, written]
      | some write => by_cases here : write.mid = other <;> simp [writes, written, here]
    · intro earlier before later now
      obtain ⟨old, oldMember, rfl⟩ := List.mem_map.mp before
      obtain ⟨new, newMember, rfl⟩ := List.mem_map.mp now
      obtain ⟨sent, oldMid⟩ := List.mem_filter.mp oldMember
      obtain ⟨sending, newMid⟩ := List.mem_filter.mp newMember
      simp only [decide_eq_true_eq] at oldMid newMid
      obtain ⟨onMid, numbered⟩ := only new sending
      rw [numbered]
      exact below old sent (oldMid.trans (newMid.symm.trans onMid))
  · intro other slot' use' mid' present lined'
    have held' : lineOf task.sourceSlots other use' = some mid' := by
      rw [← unmoved]
      simp [lineOf, present, lined']
    by_cases same : mid' = mid
    · subst same
      have one := assigned.exclusive (.source other use') (.source source use) mid' held' holds
      obtain ⟨rfl, rfl⟩ : other = source ∧ use' = use := by simpa using one
      simp only [AList.lookup_insert, Option.some.injEq] at present
      subst present
      have advanced : (slot.advance use').txSeq use' = slot.txSeq use' + 1 := by cases use' <;> rfl
      rw [advanced]
      intro write member sameMid
      rw [writes_append, List.mem_append] at member
      rcases member with earlier | now
      · exact Nat.lt_succ_of_lt (below write earlier sameMid)
      · exact Nat.lt_succ_of_le (Nat.le_of_eq (only write now).2)
    · refine Below.other ?_ same sentOn
      simp only [Table.lookup_insert_eq] at present
      split at present
      · rename_i here
        obtain rfl := Option.some.inj present
        have uncounted : (slot.advance use).txSeq use' = slot.txSeq use' := by
          have apart : use' ≠ use := by
            rintro rfl
            exact same (Option.some.inj ((line_advance slot use' use' ▸ lined').symm.trans lined))
          cases use <;> cases use' <;> first | rfl | exact absurd rfl apart
        rw [uncounted]
        exact counted other slot use' mid' (here ▸ stored) (line_advance slot use use' ▸ lined')
      · exact counted other slot' use' mid' present lined'
  · intro other audio unused
    have stillUsed : Extends task.sourceSlots (task.sourceSlots.insert source (slot.advance use)) :=
      fun pid use mid holds => (unmoved pid use).trans holds
    have before : other ∉ usedMids task.sourceSlots := unused ∘ stillUsed.used
    have apart : other ≠ mid := by
      rintro rfl
      exact before (used_of_lineOf holds)
    exact (marked other audio before).other apart sentOn
  · intro write member
    rw [writes_append, List.mem_append] at member
    rcases member with earlier | now
    · exact listed write earlier
    · rw [sentOn write now]
      exact List.mem_map.mpr ⟨_, assigned.listed (.source source use) mid holds, rfl⟩

/-- Forwarding one packet. -/
theorem write (numbered : Numbered task past)
    (assigned : WellAssigned task.lines task.sourceSlots) (rtc : Rtc) (media : ForwardedMedia)
    (takenUp : task.TakenUp past media) :
    Numbered (task.writeForwardedRtp rtc media).1
      (past ++ (task.writeForwardedRtp rtc media).2) := by
  have ready := numbered.ensure assigned media takenUp
  have lines := (assigned.ensure media.sourcePid task.ownAudioPt task.ownVideoPt
    task.midSeqWatermark media.isScreen).1
  change WellAssigned task.lines (task.ensureSlot media.sourcePid media.isScreen).2 at lines
  have outcome := task.writeForwardedRtp_outcome rtc media
  generalize task.writeForwardedRtp rtc media = result at outcome ⊢
  cases outcome with
  | refused noSlot => simpa using numbered
  | unlined slot slots ensured missing =>
    rw [ensured] at ready
    simpa using ready
  | sent slot slots mid ensured lined =>
    have stored : slots.lookup media.sourcePid = some slot := Task.ensureSlot_stored ensured
    rw [ensured] at ready lines
    refine ready.spend lines stored lined ?_
    intro write member
    cases streamed : rtc.streamTx mid <;> simp [writes, Output.written, streamed] at member
    subst member
    exact ⟨rfl, rfl⟩

/-- The numbers after an announcement that hands nothing over. -/
theorem announce (numbered : Numbered task past)
    (assigned : WellAssigned task.lines task.sourceSlots) (rtc : Rtc) (source : ParticipantId)
    (createdNew gained : Bool) :
    Numbered (task.announceSource rtc source createdNew gained).1
      (past ++ (task.announceSource rtc source createdNew gained).2) := by
  obtain ⟨pending, framed⟩ := task.announceSource_frame rtc source createdNew gained
  refine numbered.quiet ?_ ?_ ?_ ?_ (Task.announceSource_writes ..)
  · rw [framed]
  · rw [framed]
  · rw [framed]
    exact fun _ member => member
  · rw [framed]
    exact assigned.distinct

/-- A `Media` command. -/
theorem forward (numbered : Numbered task past)
    (assigned : WellAssigned task.lines task.sourceSlots) (rtc : Rtc) (media : ForwardedMedia)
    (takesUp : (media.isAudio && media.sourcePid ∈ task.mutedPeers) = false →
      task.TakenUp past media ∧
        Task.TakenUp { task with
          sourceSlots := (task.ensureSlot media.sourcePid media.isScreen).2 } past media) :
    Numbered (task.forward rtc media).1 (past ++ (task.forward rtc media).2) := by
  have sent : ∀ {origin : Task} (createdNew gained : Bool), Numbered origin past →
      WellAssigned origin.lines origin.sourceSlots → origin.TakenUp past media →
      Numbered
        ((origin.writeForwardedRtp rtc media).1.announceSource rtc media.sourcePid
          createdNew gained).1
        (past ++ ((origin.writeForwardedRtp rtc media).2 ++
          ((origin.writeForwardedRtp rtc media).1.announceSource rtc media.sourcePid
            createdNew gained).2)) := by
    intro origin createdNew gained numbered assigned takenUp
    have standing : Forwarding origin.sourceSlots origin [] := ⟨assigned, Extends.refl _, by simp⟩
    rw [← List.append_assoc]
    exact (numbered.write assigned rtc media takenUp).announce
      (standing.write rtc media).assigned rtc media.sourcePid createdNew gained
  have outcome := task.forward_outcome rtc media
  generalize task.forward rtc media = result at outcome ⊢
  cases outcome with
  | muted audio silenced => simpa using numbered
  | parked heard absent noSlot =>
    have framed : (task.park media).lines = task.lines ∧
        (task.park media).sourceSlots = task.sourceSlots ∧
        (task.park media).midSeqWatermark = task.midSeqWatermark := by
      simp only [Task.park]
      split <;> exact ⟨rfl, rfl, rfl⟩
    refine numbered.quiet framed.2.1 framed.2.2 ?_ ?_ rfl
    · rw [framed.1]
      exact fun _ member => member
    · rw [framed.1]
      exact assigned.distinct
  | live heard slot stored gained =>
    exact sent false gained numbered assigned (takesUp heard).1
  | opened heard slot slots opening absent ensured changed stored gained =>
    have same : (task.ensureSlot media.sourcePid media.isScreen).2 = slots := by rw [ensured]
    have ready := numbered.ensure assigned media (takesUp heard).1
    have lines := (assigned.ensure media.sourcePid task.ownAudioPt task.ownVideoPt
      task.midSeqWatermark media.isScreen).1
    change WellAssigned task.lines (task.ensureSlot media.sourcePid media.isScreen).2 at lines
    have again := (takesUp heard).2
    rw [same] at ready lines again
    subst changed
    exact sent true gained ready lines again

/-- Flushing buffered packets: each is forwarded under the condition. -/
theorem flush (numbered : Numbered task past)
    (assigned : WellAssigned task.lines task.sourceSlots) (rtc : Rtc) (sources : List ParticipantId)
    (takesUp : Along (Task.flushSource rtc) (Task.OnFlushed Task.TakenUp rtc) task past sources) :
    Numbered (Task.flush rtc task sources).1 (past ++ (Task.flush rtc task sources).2) := by
  let law : Task → List Output → Prop := fun task past =>
    Numbered task past ∧ WellAssigned task.lines task.sourceSlots
  refine (Task.flush_keeps takesUp law (fun _ => True) (fun _ _ _ _ _ _ _ _ => trivial)
    ?_ ?_ ?_ ⟨numbered, assigned⟩).1
  · intro task past source standing
    have dropped : Numbered { task with pendingMedia := task.pendingMedia.erase source }
        (past ++ []) :=
      standing.1.quiet rfl rfl (fun _ member => member) standing.2.distinct writes_nil
    rw [List.append_nil] at dropped
    exact ⟨dropped, standing.2⟩
  · intro task past outputs inert standing
    exact ⟨standing.1.quiet rfl rfl (fun _ member => member) standing.2.distinct inert.writes,
      standing.2⟩
  · intro task past media standing takenUp _
    have forwarding : Forwarding task.sourceSlots task [] := ⟨standing.2, Extends.refl _, by simp⟩
    exact ⟨standing.1.write standing.2 rtc media takenUp, (forwarding.write rtc media).assigned⟩

/-- A departure leaves the counters of the freed lines as watermarks. -/
theorem peerLeft (numbered : Numbered task past)
    (assigned : WellAssigned task.lines task.sourceSlots) (source : ParticipantId) :
    Numbered (task.peerLeft source) past := by
  obtain ⟨increasing, counted, marked, listed⟩ := numbered
  refine ⟨increasing, ?_, ?_, listed⟩
  · intro other slot use mid stored lined
    simp only [Task.peerLeft, Table.lookup_erase_eq] at stored
    split at stored
    · simp at stored
    · exact counted other slot use mid stored lined
  · intro mid audio unused
    rcases Task.peerLeft_audio assigned source audio unused with
      ⟨slot, stored, here, saved⟩ | ⟨before, kept⟩
    · rw [saved]
      exact counted source slot .audio mid stored (by simp [SourceSlot.line, here])
    · rw [kept]
      exact marked mid audio before

/-- A stopped share frees a video line only; the slot keeps its counters. -/
theorem sourceScreenStopped (numbered : Numbered task past)
    (assigned : WellAssigned task.lines task.sourceSlots) (source : ParticipantId) :
    Numbered (task.sourceScreenStopped source) past := by
  obtain ⟨increasing, counted, marked, listed⟩ := numbered
  refine ⟨increasing, ?_, ?_, listed⟩
  · intro other slot use mid stored lined
    simp only [Task.sourceScreenStopped, Table.lookup_modify] at stored
    split at stored
    · rename_i here
      obtain ⟨former, present, rfl⟩ := Option.map_eq_some_iff.mp stored
      cases use with
      | audio => exact counted source former .audio mid present lined
      | video => exact counted source former .video mid present lined
      | screen => simp [SourceSlot.line] at lined
    · exact counted other slot use mid stored lined
  · intro mid audio unused
    exact marked mid audio (Task.sourceScreenStopped_audio assigned source audio unused)

/-- Every turn under the condition. -/
theorem turn (numbered : Numbered task past)
    (assigned : WellAssigned task.lines task.sourceSlots) (input : Rtc × Task.Turn)
    (takesUp : Task.OnEachWrite Task.TakenUp task past input) :
    Numbered (task.turn input).1 (past ++ (task.turn input).2) := by
  have still := (task.turn_turned assigned input).assigned
  obtain ⟨rtc, taken⟩ := input
  cases taken with
  | drained events =>
    obtain ⟨slots, watermarks, _, grown, silent⟩ := task.drainOutputs_quiet rtc events
    exact numbered.quiet slots watermarks grown still.distinct silent
  | command cmd =>
    have idle : Task.idle cmd = true →
        Numbered (task.handle rtc cmd).1 (past ++ (task.handle rtc cmd).2) := by
      intro unconcerned
      obtain ⟨lines, slots, watermarks, _, silent⟩ := task.handle_idle rtc cmd unconcerned
      refine numbered.quiet slots watermarks ?_ still.distinct silent
      rw [lines]
      exact fun _ member => member
    cases cmd with
    | media packet => exact numbered.forward assigned rtc packet takesUp
    | renegotiationOffer sdp =>
      obtain ⟨lines, pending, framed, grown⟩ := task.negotiated_frame rtc sdp
      have adopted := task.negotiated_assigned rtc sdp assigned
      have learnt : Numbered (task.negotiated rtc sdp) (past ++ []) :=
        numbered.quiet (by rw [framed]) (by rw [framed]) (by rw [framed]; exact grown)
          adopted.distinct rfl
      rw [List.append_nil] at learnt
      have flushed := learnt.flush adopted rtc _ takesUp
      refine flushed.of_writes ?_
      rw [writes_append, writes_append, ← Task.renegotiate_writes]
      rfl
    | screenShareActive active =>
      cases active <;>
        exact numbered.quiet rfl rfl (fun _ member => member) still.distinct rfl
    | peerLeft source =>
      change Numbered (task.peerLeft source) (past ++ [])
      rw [List.append_nil]
      exact numbered.peerLeft assigned source
    | sourceScreenStopped source =>
      change Numbered (task.sourceScreenStopped source) (past ++ [])
      rw [List.append_nil]
      exact numbered.sourceScreenStopped assigned source
    | _ => exact idle rfl

/-- Before the first turn nothing was handed over. -/
theorem start (task : Task) : Numbered task [] :=
  ⟨fun _ => .nil, fun _ _ _ _ _ _ _ member => by simp at member,
    fun _ _ _ _ member => by simp at member, fun _ member => by simp at member⟩

end Numbered

namespace Task

/-- In a run whose video lines are all taken up beyond the numbers they carried,
the numbers on every line strictly increase, whichever sources use it and for
whichever use.

The invariant bounds the numbers that were written on a line by the counter of the slot that
has it. A line that changes hands starts from a new counter, which is why each video line
must be taken up beyond what it carried. -/
theorem sequence_increasing (pid : ParticipantId) (ownAudioPt ownVideoPt : Nat) (roomId : RoomId)
    (now : Nat) (answer : SdpAnswer) (turns : List (Rtc × Turn))
    (takesUp : Along turn (OnEachWrite TakenUp) (start pid ownAudioPt ownVideoPt roomId now answer) [] turns)
    (mid : Mid) :
    (seqsOn mid
      (run (start pid ownAudioPt ownVideoPt roomId now answer) turns).2).Pairwise (· < ·) := by
  let law : Task → List Output → Prop := fun task past =>
    Numbered task past ∧ WellAssigned task.lines task.sourceSlots
  have initial : law (start pid ownAudioPt ownVideoPt roomId now answer) [] :=
    ⟨Numbered.start _, start_assigned pid ownAudioPt ownVideoPt roomId now answer⟩
  have each : ∀ task past input, law task past → OnEachWrite TakenUp task past input →
      law (task.turn input).1 (past ++ (task.turn input).2) := by
    intro task past input standing takesUp
    exact ⟨standing.1.turn standing.2 input takesUp, (task.turn_turned standing.2 input).assigned⟩
  have reached := takesUp.keeps law each initial
  exact reached.1.increasing mid

/-- Two pairs besides the receiver's own. -/
def twoPairs : SdpAnswer where
  sdp := "v=0"
  mids := [(⟨"0"⟩, .audio), (⟨"1"⟩, .video), (⟨"2"⟩, .audio), (⟨"3"⟩, .video), (⟨"4"⟩, .audio),
    (⟨"5"⟩, .video)]
  distinct := by decide

/-- Two cameras on two lines, one of which is taken over by a third. -/
theorem sequence_increasing_takeover :
    (seqsOn ⟨"3"⟩ (run (start ⟨0⟩ 111 96 "room" 0 twoPairs)
      ([.media (.picture ⟨1⟩ 0 false), .media (.picture ⟨2⟩ 0 false), .peerLeft ⟨1⟩,
        .media (.picture ⟨3⟩ 0 false)].map fun cmd =>
          (Rtc.plain (fun _ => none) 0, .command cmd))).2).Pairwise (· < ·) :=
  sequence_increasing ⟨0⟩ 111 96 "room" 0 twoPairs _ (by decide +kernel) ⟨"3"⟩

/-- A source that starts sharing takes up the line a departed camera used, and
starts it from zero again. -/
theorem screen_repeats_numbers :
    ¬ ∀ (pid : ParticipantId) (ownAudioPt ownVideoPt : Nat) (roomId : RoomId) (now : Nat)
      (answer : SdpAnswer) (turns : List (Rtc × Turn)) (mid : Mid),
      (seqsOn mid (run (start pid ownAudioPt ownVideoPt roomId now answer) turns).2).Pairwise
        (· < ·) := by
  intro increasing
  have numbers := increasing ⟨0⟩ 111 96 "room" 0 twoPairs
    ([.media (.picture ⟨1⟩ 0 false), .media (.picture ⟨2⟩ 0 false), .peerLeft ⟨1⟩,
      .media (.picture ⟨2⟩ 0 true)].map fun cmd => (Rtc.plain (fun _ => none) 0, .command cmd)) ⟨"3"⟩
  revert numbers
  decide +kernel

end Task

end Seameet

import Mathlib.Data.List.TakeWhile
import Seameet.Library.Runs
import Seameet.Media.Holding

/-!
# Packets that wait for a slot

A packet whose source can have no slot waits, and a renegotiation flushes what waits.
The flush empties a source's queue before it knows whether the source has a slot, the
queue keeps its oldest packets once it is full, and the flush drops a packet by the
time it was captured, not by the time it was taken from the command queue.

So a source's recent packets reach its first slot in the runs in which none of this
happens to it: a packet that has to wait finds room, and an offer that is processed
while packets wait finds a pair of lines free when its flush comes to the source, a
transmit stream for every line, and no waiting packet that is older than its wait.
-/

namespace Seameet

open Library

section Used

variable {slots : SourceSlots} {source : ParticipantId} {slot : SourceSlot}

/-- A slot may be replaced by one with the same lines. -/
theorem mem_usedMids_insert (stored : slots.lookup source = some slot) {replaced : SourceSlot}
    (same : replaced.mids = slot.mids) (mid : Mid) :
    mid ∈ usedMids (slots.insert source replaced) ↔ mid ∈ usedMids slots := by
  simp only [mem_usedMids, Table.lookup_insert_eq]
  constructor
  · rintro ⟨other, held, read, holds⟩
    split at read
    · cases read
      exact ⟨source, slot, stored, same ▸ holds⟩
    · exact ⟨other, held, read, holds⟩
  · rintro ⟨other, held, read, holds⟩
    by_cases here : other = source
    · subst here
      rw [stored] at read
      cases read
      exact ⟨other, replaced, by simp, same ▸ holds⟩
    · exact ⟨other, held, by rwa [if_neg here], holds⟩

/-- The free video line is the same after such a replacement. -/
theorem freeVideo_insert (lines : Lines) (stored : slots.lookup source = some slot)
    (replaced : SourceSlot) (same : replaced.mids = slot.mids) :
    lines.freeVideo (slots.insert source replaced) = lines.freeVideo slots := by
  unfold Lines.freeVideo
  congr 1
  funext line
  simp only [mem_usedMids_insert stored same]

end Used

/-- Spending a number keeps a slot's lines. -/
theorem SourceSlot.mids_advance (slot : SourceSlot) (use : MediaUse) :
    (slot.advance use).mids = slot.mids := by
  cases use <;> rfl

namespace Task

variable (rtc : Rtc)

/-- A source has a slot whose lines have streams, with a screen line or a video line
left for one if screen packets are to come. -/
structure Served (task : Task) (source : ParticipantId) (screens : Prop) : Prop where
  streams : ∀ line ∈ task.lines.allMids, rtc.streamTx line.1 = true
  slot : ∃ slot, task.sourceSlots.lookup source = some slot ∧
    (∀ mid ∈ slot.mids, rtc.streamTx mid = true) ∧
    (screens → slot.screenMid.isSome = true ∨
      (task.lines.freeVideo task.sourceSlots).isSome = true)

/-- A slot with its lines served has a line for every packet that is to come. -/
theorem line_served {slot : SourceSlot} (media : ForwardedMedia)
    (lined : ∀ mid ∈ slot.mids, rtc.streamTx mid = true)
    (screen : media.use = .screen → slot.screenMid.isSome = true) :
    ∃ mid, slot.line media.use = some mid ∧ rtc.streamTx mid = true := by
  cases use : media.use with
  | audio => exact ⟨slot.audioMid, rfl, lined _ (by simp [SourceSlot.mids])⟩
  | video => exact ⟨slot.videoMid, rfl, lined _ (by simp [SourceSlot.mids])⟩
  | screen =>
    obtain ⟨mid, present⟩ := Option.isSome_iff_exists.mp (screen use)
    exact ⟨mid, present, lined _ (by simp [SourceSlot.mids, present])⟩

/-- A packet whose slot is at hand, on lines with streams, is written. -/
theorem write_ensured (task : Task) (media : ForwardedMedia) (screens : Prop) (slot : SourceSlot)
    (slots : SourceSlots)
    (ensured : task.ensureSlot media.sourcePid media.isScreen =
      (some slot, slots.insert media.sourcePid slot))
    (streams : ∀ line ∈ task.lines.allMids, rtc.streamTx line.1 = true)
    (lined : ∀ mid ∈ slot.mids, rtc.streamTx mid = true)
    (screen : media.use = .screen → slot.screenMid.isSome = true)
    (room : screens → slot.screenMid.isSome = true ∨
      (task.lines.freeVideo (slots.insert media.sourcePid slot)).isSome = true) :
    (writes (task.writeForwardedRtp rtc media).2).map RtpWrite.packet = [media] ∧
      Served rtc (task.writeForwardedRtp rtc media).1 media.sourcePid screens := by
  obtain ⟨mid, line, stream⟩ := line_served rtc media lined screen
  have written : task.writeForwardedRtp rtc media =
      ({ task with
          sourceSlots := (slots.insert media.sourcePid slot).insert media.sourcePid
            (slot.advance media.use) },
        [.rtp { mid, pt := slot.pt media.use, seq := slot.txSeq media.use, packet := media }]) := by
    simp only [writeForwardedRtp, ensured, line, stream, ↓reduceIte]
  rw [written]
  refine ⟨rfl, streams, slot.advance media.use, by simp, ?_, ?_⟩
  · rw [SourceSlot.mids_advance]
    exact lined
  · intro wanted
    have stored : (slots.insert media.sourcePid slot).lookup media.sourcePid = some slot := by simp
    have same := freeVideo_insert task.lines stored _ (slot.mids_advance media.use)
    rw [same]
    have kept : (slot.advance media.use).screenMid = slot.screenMid := by
      cases media.use <;> rfl
    rw [kept]
    exact room wanted

/-- A packet of a served source is written, and the source stays served. -/
theorem Served.write {task : Task} {source : ParticipantId} {screens : Prop}
    (served : Served rtc task source screens) (media : ForwardedMedia)
    (own : media.sourcePid = source) (screen : media.use = .screen → screens) :
    (writes (task.writeForwardedRtp rtc media).2).map RtpWrite.packet = [media] ∧
      Served rtc (task.writeForwardedRtp rtc media).1 source screens := by
  obtain ⟨streams, slot, stored, lined, room⟩ := served
  subst own
  have same := freeVideo_insert task.lines stored slot rfl
  have outcome := getOrCreateSlot_outcome media.sourcePid task.sourceSlots task.lines
    task.ownAudioPt task.ownVideoPt task.midSeqWatermark media.isScreen
  generalize ensured : getOrCreateSlot media.sourcePid task.sourceSlots task.lines
    task.ownAudioPt task.ownVideoPt task.midSeqWatermark media.isScreen = result at outcome
  have isScreen : media.use = .screen → media.isScreen = true := by
    unfold ForwardedMedia.use
    cases media.isAudio <;> cases media.isScreen <;> simp
  cases outcome with
  | kept held there settled =>
    rw [stored] at there
    cases there
    apply write_ensured rtc task media screens _ _ ensured streams lined
    · intro use
      rcases room (screen use) with has | free
      · exact has
      · by_contra bare
        rw [settled (isScreen use) (by simpa using bare)] at free
        simp at free
    · intro wanted
      rw [same]
      exact room wanted
  | gainedScreen held line there wanted bare free =>
    rw [stored] at there
    cases there
    apply write_ensured rtc task media screens _ _ ensured streams
    · intro mid holds
      rw [mem_slot_mids] at holds
      rcases holds with rfl | rfl | gained
      · exact lined _ (by simp [SourceSlot.mids])
      · exact lined _ (by simp [SourceSlot.mids])
      · cases gained
        exact streams (line.1, .video) (freeVideo_spec free).1
    · exact fun _ => rfl
    · exact fun _ => .inl rfl
  | created _ _ absent => simp [stored] at absent
  | refused absent => simp [stored] at absent

/-- The packets of a served source are written, all of them. -/
theorem Served.writeAll {task : Task} {source : ParticipantId} {screens : Prop}
    (served : Served rtc task source screens) (packets : List ForwardedMedia)
    (own : ∀ media ∈ packets, media.sourcePid = source)
    (screen : ∀ media ∈ packets, media.use = .screen → screens) :
    (writes (Task.writeAll rtc task packets).2).map RtpWrite.packet = packets ∧
      Served rtc (Task.writeAll rtc task packets).1 source screens := by
  induction packets generalizing task with
  | nil => exact ⟨rfl, served⟩
  | cons media rest inductionHypothesis =>
    obtain ⟨written, still⟩ := served.write rtc media (own media List.mem_cons_self)
      (screen media List.mem_cons_self)
    obtain ⟨others, last⟩ := inductionHypothesis still
      (fun later member => own later (List.mem_cons_of_mem _ member))
      (fun later member => screen later (List.mem_cons_of_mem _ member))
    refine ⟨?_, last⟩
    change (writes ((task.writeForwardedRtp rtc media).2 ++
      (Task.writeAll rtc (task.writeForwardedRtp rtc media).1 rest).2)).map _ = _
    rw [writes_append, List.map_append, written, others]
    rfl

/-- A source without slot can have one, and its fresh waiting packets a line each: there
are some, an audio and a video line are free, and if screen packets are among them the
first is none and a second video line is free. -/
def placeable (task : Task) (source : ParticipantId) : Bool :=
  match task.freshParked rtc source with
  | [] => false
  | first :: rest =>
      (task.lines.freeAudio task.sourceSlots).isSome &&
        (task.lines.freeVideo task.sourceSlots).isSome && decide (first.use ≠ .screen) &&
        (!(rest.any fun media => decide (media.use = .screen)) ||
          (task.lines.freeVideo (task.ensureSlot source false).2).isSome)

/-- With an audio and a video line free a source without slot gets one, whatever its
packet is. -/
theorem ensureSlot_opens {task : Task} {source : ParticipantId}
    {audioLine videoLine : Mid × MediaKind}
    (absent : task.sourceSlots.lookup source = none)
    (freeAudio : task.lines.freeAudio task.sourceSlots = some audioLine)
    (freeVideo : task.lines.freeVideo task.sourceSlots = some videoLine) :
    ∃ slot : SourceSlot, slot.mids = [audioLine.1, videoLine.1] ∧ slot.screenMid = none ∧
      ∀ mediaIsScreen, task.ensureSlot source mediaIsScreen =
        (some slot, task.sourceSlots.insert source slot) := by
  let slot : SourceSlot :=
    { audioMid := audioLine.1, videoMid := videoLine.1, screenMid := none,
      audioTxSeq := watermarkOf task.midSeqWatermark audioLine.1,
      videoTxSeq := watermarkOf task.midSeqWatermark videoLine.1,
      screenTxSeq := 0, audioPt := task.ownAudioPt, videoPt := task.ownVideoPt }
  refine ⟨slot, rfl, rfl, fun mediaIsScreen => ?_⟩
  simp only [ensureSlot, getOrCreateSlot, absent, freeAudio, freeVideo]
  rfl

/-- A flush that finds a source placeable writes its fresh waiting packets, all of them. -/
theorem flushSource_placed {task : Task} {source : ParticipantId} (own : task.ParkedOwn)
    (streams : ∀ line ∈ task.lines.allMids, rtc.streamTx line.1 = true)
    (absent : task.sourceSlots.lookup source = none)
    (placed : placeable rtc task source = true) :
    forwardedOf source (flushSource rtc task source).2 = task.freshParked rtc source ∧
      ((flushSource rtc task source).1.sourceSlots.lookup source).isSome = true := by
  have ofSource : ∀ media ∈ task.freshParked rtc source, media.sourcePid = source :=
    fun media member => own source media (List.mem_filter.mp member).1
  unfold placeable at placed
  split at placed
  · simp at placed
  · rename_i first rest fresh
    simp only [Bool.and_eq_true, Bool.or_eq_true, decide_eq_true_eq, Bool.not_eq_eq_eq_not,
      Bool.not_true, List.any_eq_false, Option.isSome_iff_exists] at placed
    obtain ⟨⟨⟨⟨audioLine, freeAudio⟩, videoLine, freeVideo⟩, notScreen⟩, second⟩ := placed
    obtain ⟨slot, mids, bare, opens⟩ := ensureSlot_opens absent freeAudio freeVideo
    cases buffer : task.pendingMedia.lookup source with
    | none => simp [freshParked, parked, buffer] at fresh
    | some buffered =>
      let emptied := { task with pendingMedia := task.pendingMedia.erase source }
      have waiting : buffered.filter (fun media => !isPendingMediaStale media.wallclock rtc.now) =
          first :: rest := by
        rw [← fresh, freshParked, parked, buffer]
        rfl
      rw [fresh] at ofSource
      have firstOwn : first.sourcePid = source := ofSource first List.mem_cons_self
      have lined : ∀ mid ∈ slot.mids, rtc.streamTx mid = true := by
        intro mid holds
        rw [mids, List.mem_pair] at holds
        rcases holds with rfl | rfl
        · exact streams (audioLine.1, .audio) (freeAudio_spec freeAudio).1
        · exact streams (videoLine.1, .video) (freeVideo_spec freeVideo).1
      have room : (∃ media ∈ rest, media.use = .screen) → slot.screenMid.isSome = true ∨
          (task.lines.freeVideo (task.sourceSlots.insert first.sourcePid slot)).isSome = true := by
        rintro ⟨media, member, screen⟩
        right
        rcases second with none | free
        · exact absurd screen (by simpa using none media member)
        · rw [firstOwn, Option.isSome_iff_exists]
          rwa [opens] at free
      obtain ⟨written, served⟩ := write_ensured rtc emptied first _ slot task.sourceSlots
        (by rw [firstOwn]; exact opens first.isScreen) streams lined
        (fun screen => absurd screen notScreen) room
      rw [firstOwn] at served
      obtain ⟨others, _, last, stored, _⟩ := served.writeAll rtc rest
        (fun media member => ofSource media (List.mem_cons_of_mem _ member))
        (fun media member screen => ⟨media, member, screen⟩)
      have flushed : flushSource rtc task source =
          ((writeAll rtc emptied (first :: rest)).1,
            (writeAll rtc emptied (first :: rest)).2 ++
              if ((writeAll rtc emptied (first :: rest)).1.sourceSlots.lookup source).isSome then
                requestKeyframe rtc source
              else []) := by
        simp only [flushSource, buffer, waiting]
        rfl
      have all : (writes (writeAll rtc emptied (first :: rest)).2).map RtpWrite.packet =
          first :: rest := by
        change (writes ((emptied.writeForwardedRtp rtc first).2 ++
          (writeAll rtc (emptied.writeForwardedRtp rtc first).1 rest).2)).map _ = _
        rw [writes_append, List.map_append, written, others]
        rfl
      have present : ((writeAll rtc emptied (first :: rest)).1.sourceSlots.lookup source).isSome :=
        Option.isSome_iff_exists.mpr ⟨last, stored⟩
      rw [flushed, if_pos present, fresh]
      refine ⟨?_, present⟩
      rw [forwardedOf_append, forwardedOf_quiet source (requestKeyframe_writes rtc source),
        List.append_nil, forwardedOf, all]
      exact List.filter_eq_self.mpr fun media member => by simpa using ofSource media member

/-- Asking for another source's slot leaves a source's slot as it is. -/
theorem ensureSlot_other (task : Task) {source other : ParticipantId} (mediaIsScreen : Bool)
    (apart : source ≠ other) :
    (task.ensureSlot other mediaIsScreen).2.lookup source = task.sourceSlots.lookup source := by
  have outcome := getOrCreateSlot_outcome other task.sourceSlots task.lines task.ownAudioPt
    task.ownVideoPt task.midSeqWatermark mediaIsScreen
  change SlotOutcome _ _ _ _ _ _ _ (task.ensureSlot other mediaIsScreen) at outcome
  generalize task.ensureSlot other mediaIsScreen = result at outcome ⊢
  cases outcome with
  | refused => rfl
  | _ => rw [Table.lookup_insert_eq, if_neg apart]

/-- Forwarding another source's packet leaves a source's slot as it is. -/
theorem writeForwardedRtp_other (task : Task) {source : ParticipantId} (media : ForwardedMedia)
    (apart : source ≠ media.sourcePid) :
    (task.writeForwardedRtp rtc media).1.sourceSlots.lookup source =
      task.sourceSlots.lookup source := by
  have ensured := task.ensureSlot_other media.isScreen apart
  have outcome := task.writeForwardedRtp_outcome rtc media
  generalize task.writeForwardedRtp rtc media = result at outcome ⊢
  cases outcome with
  | refused => rfl
  | unlined slot slots found missing =>
    rw [found] at ensured
    exact ensured
  | sent slot slots mid found lined =>
    rw [found] at ensured
    rw [Table.lookup_insert_eq, if_neg apart]
    exact ensured

/-- Forwarding other sources' packets leaves a source's slot and the lines as they are. -/
theorem writeAll_other (task : Task) {source : ParticipantId} (packets : List ForwardedMedia)
    (apart : ∀ media ∈ packets, source ≠ media.sourcePid) :
    (writeAll rtc task packets).1.sourceSlots.lookup source = task.sourceSlots.lookup source := by
  induction packets generalizing task with
  | nil => rfl
  | cons media rest inductionHypothesis =>
    change (writeAll rtc (task.writeForwardedRtp rtc media).1 rest).1.sourceSlots.lookup source = _
    rw [inductionHypothesis _ fun later member => apart later (List.mem_cons_of_mem _ member),
      task.writeForwardedRtp_other rtc media (apart media List.mem_cons_self)]

/-- Flushing another source leaves a source's slot as it is. -/
theorem flushSource_slot {task : Task} {source flushed : ParticipantId} (own : task.ParkedOwn)
    (apart : source ≠ flushed) :
    (flushSource rtc task flushed).1.sourceSlots.lookup source =
      task.sourceSlots.lookup source := by
  unfold flushSource
  cases buffer : task.pendingMedia.lookup flushed with
  | none => rfl
  | some buffered =>
    apply writeAll_other
    intro media member
    rw [own flushed media (by simpa [parked, buffer] using (List.mem_filter.mp member).1)]
    exact apart

/-- A flush of other sources only: the source waits as before, gets no slot and has
nothing written. -/
theorem flush_others {task : Task} {source : ParticipantId} (own : task.ParkedOwn)
    (sources : List ParticipantId) (apart : source ∉ sources) :
    (flush rtc task sources).1.ParkedOwn ∧
      (flush rtc task sources).1.parked source = task.parked source ∧
      forwardedOf source (flush rtc task sources).2 = [] ∧
      (flush rtc task sources).1.sourceSlots.lookup source = task.sourceSlots.lookup source := by
  induction sources generalizing task with
  | nil => exact ⟨own, rfl, rfl, rfl⟩
  | cons flushed rest inductionHypothesis =>
    obtain ⟨here, later⟩ := not_or.mp (List.mem_cons.not.mp apart)
    obtain ⟨emptied, handed⟩ := flushSource_order rtc task own flushed
    have stillOwn : (flushSource rtc task flushed).1.ParkedOwn := by
      intro other media member
      rw [emptied] at member
      split at member
      · simp at member
      · exact own other media member
    have none : forwardedOf source (flushSource rtc task flushed).2 = [] := by
      have sub := handed source
      rw [if_neg here] at sub
      exact List.sublist_nil.mp sub
    obtain ⟨last, parked, quiet, slot⟩ := inductionHypothesis stillOwn later
    refine ⟨last, ?_, ?_, ?_⟩
    · exact parked.trans (by rw [emptied, if_neg here])
    · change forwardedOf source ((flushSource rtc task flushed).2 ++
        (flush rtc (flushSource rtc task flushed).1 rest).2) = _
      rw [forwardedOf_append, none, quiet, List.append_nil]
    · exact slot.trans (flushSource_slot rtc own here)

/-- A flush lets nothing wait. -/
theorem flush_unparked (task : Task) {source : ParticipantId} (sources : List ParticipantId)
    (unparked : task.pendingMedia.lookup source = none) :
    (flush rtc task sources).1.pendingMedia.lookup source = none := by
  refine traced_keeps_state (fun now => now.pendingMedia.lookup source = none) sources ?_ task
    unparked
  intro now flushed _ none
  unfold flushSource
  cases now.pendingMedia.lookup flushed with
  | none => exact none
  | some buffered =>
    rw [(writeAll_order rtc _ _).1, Table.lookup_erase_eq]
    split
    · rfl
    · exact none

/-- A slot is kept through any flush. -/
theorem flush_keeps_slot (task : Task) (source : ParticipantId) (sources : List ParticipantId)
    (present : (task.sourceSlots.lookup source).isSome = true) :
    ((flush rtc task sources).1.sourceSlots.lookup source).isSome = true := by
  have kept : ∀ (packets : List ForwardedMedia) (task : Task),
      (task.sourceSlots.lookup source).isSome = true →
        ((writeAll rtc task packets).1.sourceSlots.lookup source).isSome = true := by
    intro packets
    induction packets with
    | nil => exact fun _ present => present
    | cons media rest inductionHypothesis =>
      intro task present
      apply inductionHypothesis
      by_contra gone
      obtain ⟨_, back, _⟩ := task.writeForwardedRtp_order rtc media
      simp [back source (by simpa using gone)] at present
  induction sources generalizing task with
  | nil => exact present
  | cons flushed rest inductionHypothesis =>
    apply inductionHypothesis
    unfold flushSource
    split
    · exact present
    · exact kept _ _ present

/-- A list goes up to a member of it and then on from there. -/
theorem takeWhile_ne_append (source : ParticipantId) {keys : List ParticipantId}
    (listed : source ∈ keys) : ∃ rest, keys = keys.takeWhile (· ≠ source) ++ source :: rest := by
  induction keys with
  | nil => simp at listed
  | cons key later inductionHypothesis =>
    by_cases here : key = source
    · exact ⟨later, by simp [here]⟩
    · obtain ⟨rest, order⟩ := inductionHypothesis
        ((List.mem_cons.mp listed).resolve_left fun same => here same.symm)
      refine ⟨rest, ?_⟩
      rw [List.takeWhile_cons_of_pos (by simpa using here), List.cons_append, ← order]

/-- The task when a renegotiation's flush comes to a source. -/
def atFlush (task : Task) (sdp : String) (source : ParticipantId) : Task :=
  (flush rtc (task.negotiated rtc sdp)
    ((rtc.arrange (task.negotiated rtc sdp).pendingMedia.keys).takeWhile (· ≠ source))).1

/-- What a renegotiation hands over of a source is what its flush hands over when it
comes to the source, with the slot and the waiting packets the source had before. -/
theorem renegotiate_source {task : Task} (own : task.ParkedOwn) (sdp : String)
    (source : ParticipantId) :
    (task.atFlush rtc sdp source).ParkedOwn ∧
      (task.atFlush rtc sdp source).freshParked rtc source = task.freshParked rtc source ∧
      (task.atFlush rtc sdp source).sourceSlots.lookup source = task.sourceSlots.lookup source ∧
      (task.atFlush rtc sdp source).lines = (task.negotiated rtc sdp).lines ∧
      forwardedOf source (task.renegotiate rtc sdp).2 =
        forwardedOf source (flushSource rtc (task.atFlush rtc sdp source) source).2 ∧
      ∃ rest, (task.renegotiate rtc sdp).1 =
        (flush rtc (flushSource rtc (task.atFlush rtc sdp source) source).1 rest).1 := by
  obtain ⟨lines, pending, framed, _⟩ := task.negotiated_frame rtc sdp
  have sameParked : (task.negotiated rtc sdp).parked = task.parked := by
    rw [framed]
    rfl
  have sameSlots : (task.negotiated rtc sdp).sourceSlots = task.sourceSlots := by rw [framed]
  have stillOwn : (task.negotiated rtc sdp).ParkedOwn := by
    unfold ParkedOwn
    rw [sameParked]
    exact own
  let keys := rtc.arrange (task.negotiated rtc sdp).pendingMedia.keys
  let others := keys.takeWhile (· ≠ source)
  have apart : source ∉ others := by
    intro member
    have all : others.all (· ≠ source) = true := List.all_takeWhile
    simpa using List.all_eq_true.mp all source member
  obtain ⟨ownThere, parkedThere, quiet, slotThere⟩ := flush_others rtc stillOwn others apart
  have there : task.atFlush rtc sdp source = (flush rtc (task.negotiated rtc sdp) others).1 := rfl
  have ownAt : (task.atFlush rtc sdp source).ParkedOwn := ownThere
  obtain ⟨⟨slots, left, frame⟩, _⟩ := flush_frame rtc (task.negotiated rtc sdp) others
  have freshThere : (task.atFlush rtc sdp source).freshParked rtc source =
      task.freshParked rtc source := by
    rw [there, freshParked, parkedThere, sameParked, freshParked]
  have linesThere : (task.atFlush rtc sdp source).lines = (task.negotiated rtc sdp).lines := by
    rw [there, frame]
  have flushed : (task.renegotiate rtc sdp).1 = (flush rtc (task.negotiated rtc sdp) keys).1 := rfl
  have handed : forwardedOf source (task.renegotiate rtc sdp).2 =
      forwardedOf source (flush rtc (task.negotiated rtc sdp) keys).2 := by
    rw [forwardedOf, renegotiate_writes, forwardedOf]
  refine ⟨ownAt, freshThere, slotThere.trans (by rw [sameSlots]), linesThere, ?_⟩
  by_cases listed : source ∈ keys
  · obtain ⟨rest, order⟩ := takeWhile_ne_append source listed
    have split : flush rtc (task.negotiated rtc sdp) keys =
        ((flush rtc (flushSource rtc (task.atFlush rtc sdp source) source).1 rest).1,
          (flush rtc (task.negotiated rtc sdp) others).2 ++
            ((flushSource rtc (task.atFlush rtc sdp source) source).2 ++
              (flush rtc (flushSource rtc (task.atFlush rtc sdp source) source).1 rest).2)) := by
      rw [order]
      exact traced_append (flushSource rtc) others (source :: rest) (task.negotiated rtc sdp)
    obtain ⟨emptied, _⟩ := flushSource_order rtc (task.atFlush rtc sdp source) ownAt source
    have ownAfter : (flushSource rtc (task.atFlush rtc sdp source) source).1.ParkedOwn := by
      intro other media member
      rw [emptied] at member
      split at member
      · simp at member
      · exact ownAt other media member
    have nothing : forwardedOf source
        (flush rtc (flushSource rtc (task.atFlush rtc sdp source) source).1 rest).2 = [] := by
      have later := (flush_order rtc _ ownAfter rest).2 source
      rw [freshParked, emptied, if_pos rfl] at later
      exact List.sublist_nil.mp later
    refine ⟨?_, rest, by rw [flushed, split]⟩
    rw [handed, split, forwardedOf_append, forwardedOf_append, quiet, nothing, List.nil_append,
      List.append_nil]
  · -- Nothing of the source waits, so the flush never comes to it.
    have whole : others = keys := by
      refine List.takeWhile_eq_self_iff.mpr fun key member => ?_
      simpa using fun same : key = source => listed (same ▸ member)
    have unparked : (task.negotiated rtc sdp).pendingMedia.lookup source = none := by
      cases stored : (task.negotiated rtc sdp).pendingMedia.lookup source with
      | none => rfl
      | some buffered =>
        refine absurd ?_ listed
        rw [(rtc.arranged _).mem_iff, Table.mem_keys]
        exact ⟨buffered, stored⟩
    have missing : (task.atFlush rtc sdp source).pendingMedia.lookup source = none :=
      flush_unparked rtc _ others unparked
    have idle : flushSource rtc (task.atFlush rtc sdp source) source =
        (task.atFlush rtc sdp source, []) := by
      rw [flushSource, missing]
    rw [idle]
    refine ⟨?_, [], ?_⟩
    · rw [handed, ← whole, quiet, forwardedOf_quiet source writes_nil]
    · rw [flushed, ← whole]
      rfl

/-- A renegotiation that finds a source placeable when its flush comes to it writes all
of its fresh waiting packets. -/
theorem renegotiate_placed {task : Task} {source : ParticipantId} (own : task.ParkedOwn)
    (sdp : String)
    (streams : ∀ line ∈ (task.negotiated rtc sdp).lines.allMids, rtc.streamTx line.1 = true)
    (absent : task.sourceSlots.lookup source = none)
    (placed : placeable rtc (task.atFlush rtc sdp source) source = true) :
    forwardedOf source (task.renegotiate rtc sdp).2 = task.freshParked rtc source ∧
      ((task.renegotiate rtc sdp).1.sourceSlots.lookup source).isSome = true := by
  obtain ⟨ownThere, freshThere, slotThere, linesThere, handed, rest, after⟩ :=
    task.renegotiate_source rtc own sdp source
  obtain ⟨written, present⟩ := flushSource_placed rtc ownThere (by rw [linesThere]; exact streams)
    (slotThere.trans absent) placed
  refine ⟨?_, ?_⟩
  · rw [handed, written, freshThere]
  · rw [after]
    exact flush_keeps_slot rtc _ source rest present

/-- What a `Media` command does to the waiting packets and the slots: nothing, for muted
audio; the packet waits, if its source can have no slot; or its source has a slot. -/
theorem forward_waits (task : Task) (media : ForwardedMedia) :
    ((task.forward rtc media).1 = task ∧ media.isAudio = true ∧
        media.sourcePid ∈ task.mutedPeers) ∨
      ((task.forward rtc media).1 = task.park media ∧
        (media.isAudio && media.sourcePid ∈ task.mutedPeers) = false ∧
        task.sourceSlots.lookup media.sourcePid = none ∧
        (task.ensureSlot media.sourcePid media.isScreen).1 = none) ∨
      ((task.forward rtc media).1.pendingMedia = task.pendingMedia ∧
        ((task.forward rtc media).1.sourceSlots.lookup media.sourcePid).isSome = true ∧
        ∀ source, source ≠ media.sourcePid →
          (task.forward rtc media).1.sourceSlots.lookup source =
            task.sourceSlots.lookup source) := by
  have sent : ∀ (opening : Task) (createdNew gained : Bool),
      (opening.sourceSlots.lookup media.sourcePid).isSome = true →
        let after := ((opening.writeForwardedRtp rtc media).1.announceSource rtc media.sourcePid
          createdNew gained).1
        after.pendingMedia = opening.pendingMedia ∧
          (after.sourceSlots.lookup media.sourcePid).isSome = true ∧
          ∀ source, source ≠ media.sourcePid →
            after.sourceSlots.lookup source = opening.sourceSlots.lookup source := by
    intro opening createdNew gained present
    obtain ⟨pending, framed⟩ := (opening.writeForwardedRtp rtc media).1.announceSource_frame rtc
      media.sourcePid createdNew gained
    obtain ⟨kept, back, _⟩ := opening.writeForwardedRtp_order rtc media
    simp only [framed]
    refine ⟨kept, ?_, fun source apart => opening.writeForwardedRtp_other rtc media apart⟩
    by_contra gone
    simp [back media.sourcePid (by simpa using gone)] at present
  have outcome := task.forward_outcome rtc media
  generalize task.forward rtc media = result at outcome ⊢
  cases outcome with
  | muted audio silenced => exact .inl ⟨rfl, audio, silenced⟩
  | parked heard absent noSlot => exact .inr (.inl ⟨rfl, heard, absent, noSlot⟩)
  | live heard slot stored gained =>
    exact .inr (.inr (sent task false gained (by rw [stored]; rfl)))
  | opened heard slot slots opening absent ensured changed stored gained =>
    subst changed
    obtain ⟨pending, present, others⟩ := sent { task with sourceSlots := slots } true gained
      (by rw [stored]; rfl)
    refine .inr (.inr ⟨pending, present, fun source apart => (others source apart).trans ?_⟩)
    have same := task.ensureSlot_other media.isScreen apart
    rwa [ensured] at same

end Task

/-- A task with the packets of a source taken from the queue while the source had no
slot, and when. -/
structure Vigil where
  task : Task
  waits : List (ForwardedMedia × Nat)

namespace Vigil

variable (source : ParticipantId)

/-- A packet of the source that is not dropped for its mute. -/
def heard (task : Task) : Task.Turn → Option ForwardedMedia
  | .command (.media packet) =>
      if packet.sourcePid = source ∧ ¬(packet.isAudio ∧ source ∈ task.mutedPeers) then some packet
      else none
  | _ => none

/-- One turn of the task. With a slot at its end the source waits no more. -/
def step (vigil : Vigil) (input : Rtc × Task.Turn) : Option Vigil :=
  let after := (vigil.task.turn input).1
  some
    { task := after
      waits :=
        if (after.sourceSlots.lookup source).isSome then []
        else vigil.waits ++
          ((heard source vigil.task input.2).map fun packet => (packet, input.1.now)).toList }

/-- The packets taken from the queue no longer ago than the maximum age. -/
def recent (now : Nat) (waits : List (ForwardedMedia × Nat)) : List ForwardedMedia :=
  (waits.filter fun entry => !isPendingMediaStale entry.2 now).map Prod.fst

/-- The turn lets the source wait with its packets: one that has to wait finds room, its
packets are not forgotten for a departure, and an offer processed while they wait finds
every line with a stream, a place for them and none that is older than its wait. -/
def patient (vigil : Vigil) (input : Rtc × Task.Turn) : Bool :=
  let slotless := (vigil.task.sourceSlots.lookup source).isNone
  let waiting := vigil.task.parked source
  match input.2 with
  | .command (.media packet) =>
      (heard source vigil.task input.2).isNone ||
        (vigil.task.ensureSlot source packet.isScreen).1.isSome ||
        decide (waiting.length < mediaBufferCap)
  | .command (.peerLeft left) => decide (left ≠ source) || !slotless || waiting.isEmpty
  | .command (.renegotiationOffer sdp) =>
      !slotless || waiting.isEmpty ||
        ((vigil.task.negotiated input.1 sdp).lines.allMids.all (fun line =>
            input.1.streamTx line.1) &&
          vigil.waits.all (fun entry =>
            isPendingMediaStale entry.2 input.1.now ||
              !isPendingMediaStale entry.1.wallclock input.1.now) &&
          Task.placeable input.1 (vigil.task.atFlush input.1 sdp source) source)
  | _ => true

/-- What waits for a source without slot is what was taken from the queue since. -/
structure Keeps (vigil : Vigil) : Prop where
  own : vigil.task.ParkedOwn
  slotless : vigil.task.sourceSlots.lookup source = none →
    vigil.waits.map Prod.fst = vigil.task.parked source
  slotted : (vigil.task.sourceSlots.lookup source).isSome = true → vigil.waits = []

/-- What a later offer must do for a source without slot. -/
def Served (vigil : Vigil) (rtc : Rtc) (sdp : String) : Prop :=
  vigil.task.sourceSlots.lookup source = none →
    let after := vigil.task.renegotiate rtc sdp
    ((after.1.sourceSlots.lookup source).isSome = true →
      (recent rtc.now vigil.waits).Sublist (forwardedOf source after.2)) ∧
    (after.1.sourceSlots.lookup source = none →
      after.1.parked source = vigil.task.parked source)

namespace Keeps

variable {source} {vigil : Vigil}

/-- A turn that takes no packet of the source, and neither gives it a slot nor takes one
without taking what waits. -/
theorem quiet (keeps : vigil.Keeps source) (input : Rtc × Task.Turn) (after : Vigil)
    (stepped : vigil.step source input = some after)
    (own : (vigil.task.turn input).1.ParkedOwn) (silent : heard source vigil.task input.2 = none)
    (still : (vigil.task.turn input).1.sourceSlots.lookup source = none →
      vigil.task.sourceSlots.lookup source = none →
        (vigil.task.turn input).1.parked source = vigil.task.parked source)
    (gone : (vigil.task.turn input).1.sourceSlots.lookup source = none →
      (vigil.task.sourceSlots.lookup source).isSome = true →
        (vigil.task.turn input).1.parked source = []) : after.Keeps source := by
  cases stepped
  refine ⟨own, ?_, ?_⟩
  · intro absent
    simp only [absent, silent, Option.isSome_none, Bool.false_eq_true, ↓reduceIte, Option.map_none,
      Option.toList_none, List.append_nil]
    cases before : vigil.task.sourceSlots.lookup source with
    | none => rw [keeps.slotless before, still absent before]
    | some slot =>
      rw [keeps.slotted (by rw [before]; rfl), gone absent (by rw [before]; rfl)]
      rfl
  · intro present
    rw [if_pos present]

/-- A turn at whose end the source has a slot. -/
theorem slot (after : Vigil) (input : Rtc × Task.Turn)
    (stepped : vigil.step source input = some after)
    (own : (vigil.task.turn input).1.ParkedOwn)
    (present : ((vigil.task.turn input).1.sourceSlots.lookup source).isSome = true) :
    after.Keeps source := by
  cases stepped
  refine ⟨own, ?_, ?_⟩
  · intro absent
    simp [absent] at present
  · intro _
    rw [if_pos present]

/-- A `Media` command. -/
theorem media (keeps : vigil.Keeps source) (rtc : Rtc) (packet : ForwardedMedia) (after : Vigil)
    (patience : vigil.patient source (rtc, .command (.media packet)) = true)
    (stepped : vigil.step source (rtc, .command (.media packet)) = some after) :
    after.Keeps source := by
  have own := vigil.task.forward_own rtc keeps.own packet
  have turned : (vigil.task.turn (rtc, .command (.media packet))).1 =
    (vigil.task.forward rtc packet).1 := rfl
  by_cases ours : packet.sourcePid = source
  · subst ours
    rcases vigil.task.forward_waits rtc packet with ⟨same, audio, silenced⟩ |
      ⟨parks, audible, absent, noSlot⟩ | ⟨_, present, _⟩
    · apply keeps.quiet _ after stepped own
      · simp [heard, audio, silenced]
      · rw [turned, same]
        exact fun _ _ => rfl
      · rw [turned, same]
        intro absent present
        simp [absent] at present
    · have taken : heard packet.sourcePid vigil.task (.command (.media packet)) = some packet := by
        simpa [heard] using audible
      have room : (vigil.task.parked packet.sourcePid).length < mediaBufferCap := by
        simpa [patient, taken, noSlot] using patience
      have slots := (vigil.task.park_order packet packet.sourcePid).1
      have longer : (vigil.task.park packet).parked packet.sourcePid =
          vigil.task.parked packet.sourcePid ++ [packet] := by
        rw [Task.parked] at room
        simp [Task.park, Task.parked, room]
      cases stepped
      refine ⟨own, ?_, ?_⟩
      · intro _
        simp only [turned, parks, slots, absent, longer, taken, Option.isSome_none,
          Bool.false_eq_true, ↓reduceIte, Option.map_some, Option.toList_some, List.map_append,
          keeps.slotless absent, List.map_cons, List.map_nil]
      · intro present
        simp [turned, parks, slots, absent] at present
    · exact slot after _ stepped own present
  · have silent : heard source vigil.task (.command (.media packet)) = none := by
      simp [heard, ours]
    rcases vigil.task.forward_waits rtc packet with ⟨same, _⟩ | ⟨parks, _⟩ |
      ⟨pending, _, others⟩
    · apply keeps.quiet _ after stepped own silent
      · rw [turned, same]
        exact fun _ _ => rfl
      · rw [turned, same]
        intro absent present
        simp [absent] at present
    · obtain ⟨slots, same | ⟨here, _⟩⟩ := vigil.task.park_order packet source
      · apply keeps.quiet _ after stepped own silent
        · rw [turned, parks]
          exact fun _ _ => same
        · rw [turned, parks, slots]
          intro absent present
          simp [absent] at present
      · exact absurd here.symm ours
    · apply keeps.quiet _ after stepped own silent
      · intro _ _
        rw [turned, Task.parked, pending]
        rfl
      · rw [turned, others source (Ne.symm ours)]
        intro absent present
        simp [absent] at present

/-- An offer that finds the source patient gives it a slot and writes what waits and is
recent, unless nothing waits. -/
theorem offer (keeps : vigil.Keeps source) (rtc : Rtc) (sdp : String)
    (patience : vigil.patient source (rtc, .command (.renegotiationOffer sdp)) = true)
    (absent : vigil.task.sourceSlots.lookup source = none) :
    vigil.task.parked source = [] ∨
      ((vigil.task.renegotiate rtc sdp).1.sourceSlots.lookup source).isSome = true ∧
        (recent rtc.now vigil.waits).Sublist
          (forwardedOf source (vigil.task.renegotiate rtc sdp).2) := by
  simp only [patient, absent, Option.isNone_none, Bool.not_true, Bool.false_or, Bool.or_eq_true,
    List.isEmpty_iff, Bool.and_eq_true, List.all_eq_true] at patience
  rcases patience with nothing | ⟨⟨streams, timely⟩, placed⟩
  · exact .inl nothing
  · right
    obtain ⟨written, present⟩ := Task.renegotiate_placed rtc keeps.own sdp streams absent placed
    refine ⟨present, ?_⟩
    rw [written, Task.freshParked, ← keeps.slotless absent, List.filter_map, recent]
    apply List.Sublist.map
    have within : vigil.waits.filter (fun entry => !isPendingMediaStale entry.2 rtc.now) =
        (vigil.waits.filter ((fun media => !isPendingMediaStale media.wallclock rtc.now) ∘
          Prod.fst)).filter fun entry => !isPendingMediaStale entry.2 rtc.now := by
      rw [List.filter_filter]
      apply List.filter_congr
      intro entry member
      have prompt := timely entry member
      cases late : isPendingMediaStale entry.2 rtc.now with
      | true => simp
      | false => simpa [late] using prompt
    rw [within]
    exact List.filter_sublist

/-- A turn that leaves the waiting packets alone, and no source without slot. -/
theorem aside (keeps : vigil.Keeps source) (input : Rtc × Task.Turn) (after : Vigil)
    (stepped : vigil.step source input = some after)
    (silent : heard source vigil.task input.2 = none)
    (pending : (vigil.task.turn input).1.pendingMedia = vigil.task.pendingMedia)
    (slots : (vigil.task.turn input).1.sourceSlots.lookup source = none →
      vigil.task.sourceSlots.lookup source = none) : after.Keeps source := by
  have same : ∀ other, (vigil.task.turn input).1.parked other = vigil.task.parked other :=
    fun other => congrArg (fun table => (table.lookup other).getD []) pending
  apply keeps.quiet input after stepped _ silent
  · exact fun _ _ => same source
  · intro absent present
    simp [slots absent] at present
  · intro other media member
    exact keeps.own other media (same other ▸ member)

/-- Every turn that lets the source be patient. -/
theorem step (keeps : vigil.Keeps source) (input : Rtc × Task.Turn) (after : Vigil)
    (patience : vigil.patient source input = true)
    (stepped : vigil.step source input = some after) : after.Keeps source := by
  obtain ⟨rtc, taken⟩ := input
  cases taken with
  | drained events =>
    obtain ⟨slots, _, buffers, _, _⟩ := vigil.task.drainOutputs_quiet rtc events
    exact keeps.aside _ after stepped rfl buffers fun absent => slots ▸ absent
  | command cmd =>
    have idle : Task.idle cmd = true → heard source vigil.task (.command cmd) = none →
        after.Keeps source := by
      intro unconcerned silent
      obtain ⟨_, slots, _, buffers, _⟩ := vigil.task.handle_idle rtc cmd unconcerned
      exact keeps.aside _ after stepped silent buffers fun absent => slots ▸ absent
    cases cmd with
    | media packet => exact keeps.media rtc packet after patience stepped
    | renegotiationOffer sdp =>
      have emptied := (vigil.task.renegotiate_order rtc keeps.own sdp).1 source
      apply keeps.quiet _ after stepped (vigil.task.handle_own rtc keeps.own _) rfl
      · intro gone absent
        rcases keeps.offer rtc sdp patience absent with nothing | ⟨present, _⟩
        · exact emptied.trans nothing.symm
        · rw [show (vigil.task.renegotiate rtc sdp).1.sourceSlots.lookup source = none from gone]
            at present
          simp at present
      · exact fun _ _ => emptied
    | screenShareActive active =>
      cases active <;> exact keeps.aside _ after stepped rfl rfl fun absent => absent
    | peerLeft left =>
      apply keeps.quiet _ after stepped (vigil.task.handle_own rtc keeps.own _) rfl
      · intro _ absent
        by_cases here : left = source
        · subst here
          have nothing : vigil.task.parked left = [] := by simpa [patient, absent] using patience
          rw [nothing]
          simp [Task.turn, Task.handle, Task.peerLeft, Task.parked]
        · simp [Task.turn, Task.handle, Task.peerLeft, Task.parked, Ne.symm here]
      · intro gone present
        by_cases here : left = source
        · subst here
          simp [Task.turn, Task.handle, Task.peerLeft, Task.parked]
        · simp only [Task.turn, Task.handle, Task.peerLeft, Table.lookup_erase_eq,
            if_neg (Ne.symm here)] at gone
          simp [gone] at present
    | sourceScreenStopped stopped =>
      apply keeps.aside _ after stepped rfl rfl
      intro absent
      simp only [Task.turn, Task.handle, Task.sourceScreenStopped, Table.lookup_modify] at absent
      split at absent
      · rename_i here
        rw [here]
        exact Option.map_eq_none_iff.mp absent
      · exact absent
    | _ => exact idle rfl rfl

end Keeps

end Vigil

namespace Task

/-- In a run whose turns let a source be patient, a further such offer that gives a source
without slot a slot writes every packet of it taken from the queue within the maximum age,
and one that does not leaves what waits.

What the vigil counts as waiting is what is parked for the source, as long as it has no
slot. An offer that gives it one flushes all of it, and one that does not leaves it in
place. -/
theorem waiting_media_written (pid : ParticipantId) (ownAudioPt ownVideoPt : Nat)
    (roomId : RoomId) (now : Nat) (answer : SdpAnswer) (source : ParticipantId) (vigil : Vigil)
    (reached : Reaches (Vigil.step source)
      (fun vigil input => vigil.patient source input = true)
      { task := start pid ownAudioPt ownVideoPt roomId now answer, waits := [] } vigil)
    (rtc : Rtc) (sdp : String)
    (patience : vigil.patient source (rtc, .command (.renegotiationOffer sdp)) = true) :
    vigil.Served source rtc sdp := by
  have keeps : vigil.Keeps source := by
    apply reached.invariant (Vigil.Keeps source)
    · obtain ⟨slots, pending⟩ := start_fresh pid ownAudioPt ownVideoPt roomId now answer
      refine ⟨?_, ?_, ?_⟩
      · intro other media member
        simp [parked, pending] at member
      · intro _
        simp [parked, pending]
      · intro _
        rfl
    · intro before input after keeps admitted stepped
      exact keeps.step input after admitted stepped
  intro absent
  rcases keeps.offer rtc sdp patience absent with nothing | ⟨present, written⟩
  · have none : vigil.waits = [] := by simpa [nothing] using keeps.slotless absent
    refine ⟨fun _ => ?_, fun _ => ?_⟩
    · rw [none]
      exact List.nil_sublist _
    · rw [nothing]
      exact (vigil.task.renegotiate_order rtc keeps.own sdp).1 source
  · refine ⟨fun _ => written, fun gone => ?_⟩
    simp [gone] at present

/-- Two sources send a packet each to a task with one pair of lines to give. -/
def secondWaits : List (Rtc × Turn) :=
  [.media (.picture ⟨1⟩ 0 false), .media (.picture ⟨2⟩ 0 false)].map fun cmd =>
    (Rtc.plain (fun _ => none) 0, .command cmd)

/-- The task of a room with one pair of lines, watched for its second source. -/
def watched : Vigil := { task := start ⟨0⟩ 111 96 "room" 0 onePair, waits := [] }

/-- An offer that brings a further pair gives the second source its lines and writes its
packet. -/
theorem waiting_media_written_second :
    let vigil := (walk (Vigil.step ⟨2⟩) (fun vigil input => vigil.patient ⟨2⟩ input = true)
      watched secondWaits).getD watched
    vigil.Served ⟨2⟩ (Rtc.plain (fun _ => some anotherPair) 0) "offer" := by
  intro vigil
  have reached : Reaches (Vigil.step ⟨2⟩) (fun vigil input => vigil.patient ⟨2⟩ input = true)
      watched vigil := walk_reaches_end _ _ _ _ (by decide +kernel)
  exact waiting_media_written ⟨0⟩ 111 96 "room" 0 onePair ⟨2⟩ vigil reached _ "offer"
    (by decide +kernel)

/-- An offer that is refused takes what waits for the second source with it. -/
theorem refused_offer_forgets :
    let vigil := (walk (Vigil.step ⟨2⟩) always watched secondWaits).getD watched
    Reaches (Vigil.step ⟨2⟩) always watched vigil ∧
      ¬ vigil.Served ⟨2⟩ (Rtc.plain (fun _ => none) 0) "offer" := by
  intro vigil
  refine ⟨walk_reaches_end _ _ _ _ (by decide +kernel), ?_⟩
  intro served
  obtain ⟨_, kept⟩ := served (by decide +kernel)
  exact absurd (kept (by decide +kernel)) (by decide +kernel)

end Task

end Seameet

import Seameet.Media.Turns

/-!
# Every media line has one use

A receiver's connection has one line list and three ways of taking lines from
it: the receiver's own audio, camera and screen lines, the camera pair of a new
source, and the screen line of a source that starts sharing. The uses form an
exclusive lease of lines of the right kind, whatever order the commands come in.

The lease is what the task's turns keep. A line is granted only when it was just
appended to the list, or when the search over the list found it in no slot and
not among the receiver's own lines of that kind; the other own lines are
excluded by their kind, since the list names every line once.
-/

namespace Seameet

open Library

/-- What a line is kept for. -/
inductive LineUse where
  | ownAudio
  | ownVideo
  | ownScreen
  | source (pid : ParticipantId) (use : MediaUse)
deriving DecidableEq

/-- The kind of line a use needs. -/
def LineUse.kind : LineUse → MediaKind
  | .ownAudio => .audio
  | .ownVideo => .video
  | .ownScreen => .video
  | .source _ use => use.kind

/-- The line a slot table gives a source for a use. -/
def lineOf (slots : SourceSlots) (pid : ParticipantId) (use : MediaUse) : Option Mid :=
  (slots.lookup pid).bind fun slot => slot.line use

/-- The line each use holds. -/
def held (lines : Lines) (slots : SourceSlots) : LineUse → Option Mid
  | .ownAudio => lines.ownAudioMid
  | .ownVideo => lines.ownVideoMid
  | .ownScreen => lines.ownScreenMid
  | .source pid use => lineOf slots pid use

/-- The lines in use are pairwise distinct members of the list with the right
kind, and the list names every line once. -/
structure WellAssigned (lines : Lines) (slots : SourceSlots) : Prop where
  exclusive : Exclusive (held lines slots)
  listed : ∀ use mid, held lines slots use = some mid → (mid, use.kind) ∈ lines.allMids
  distinct : (lines.allMids.map Prod.fst).Nodup

/-- No source loses a line. -/
def Extends (before after : SourceSlots) : Prop :=
  ∀ pid use mid, lineOf before pid use = some mid → lineOf after pid use = some mid

/-- Slots extend themselves. -/
theorem Extends.refl (slots : SourceSlots) : Extends slots slots := fun _ _ _ holds => holds

/-- What extends what extends the slots extends the slots. -/
theorem Extends.trans {first second third : SourceSlots} (earlier : Extends first second)
    (later : Extends second third) : Extends first third :=
  fun pid use mid holds => later pid use mid (earlier pid use mid holds)

/-- The lines a table gives after a slot is stored. -/
theorem lineOf_insert (slots : SourceSlots) (source pid : ParticipantId) (slot : SourceSlot)
    (use : MediaUse) :
    lineOf (slots.insert source slot) pid use =
      if pid = source then slot.line use else lineOf slots pid use := by
  unfold lineOf
  rw [Table.lookup_insert_eq]
  split <;> rfl

/-- Storing a slot with the same lines changes no line. -/
theorem lineOf_restore {slots : SourceSlots} {source : ParticipantId} {slot stored : SourceSlot}
    (present : slots.lookup source = some stored) (same : ∀ use, slot.line use = stored.line use)
    (pid : ParticipantId) (use : MediaUse) :
    lineOf (slots.insert source slot) pid use = lineOf slots pid use := by
  rw [lineOf_insert]
  split
  · rename_i here
    subst here
    simp [lineOf, present, same]
  · rfl

/-- Spending a number moves no line. -/
@[simp]
theorem line_advance (slot : SourceSlot) (spent use : MediaUse) :
    (slot.advance spent).line use = slot.line use := by
  cases spent <;> cases use <;> rfl

/-- A line is in use exactly when some source holds it for some use. -/
theorem used_iff_lineOf (slots : SourceSlots) (mid : Mid) :
    mid ∈ usedMids slots ↔ ∃ pid use, lineOf slots pid use = some mid := by
  rw [mem_usedMids]
  constructor
  · rintro ⟨pid, slot, stored, holds⟩
    rw [mem_slot_mids] at holds
    rcases holds with rfl | rfl | screen
    · exact ⟨pid, .audio, by simp [lineOf, stored, SourceSlot.line]⟩
    · exact ⟨pid, .video, by simp [lineOf, stored, SourceSlot.line]⟩
    · exact ⟨pid, .screen, by simp [lineOf, stored, SourceSlot.line, screen]⟩
  · rintro ⟨pid, use, holds⟩
    obtain ⟨slot, stored, lined⟩ := Option.bind_eq_some_iff.mp holds
    refine ⟨pid, slot, stored, ?_⟩
    rw [mem_slot_mids]
    cases use with
    | audio => exact Or.inl (Option.some.inj lined).symm
    | video => exact Or.inr (Or.inl (Option.some.inj lined).symm)
    | screen => exact Or.inr (Or.inr lined)

/-- A slot's line is in use. -/
theorem used_of_lineOf {slots : SourceSlots} {pid : ParticipantId} {use : MediaUse} {mid : Mid}
    (holds : lineOf slots pid use = some mid) : mid ∈ usedMids slots :=
  (used_iff_lineOf slots mid).mpr ⟨pid, use, holds⟩

/-- Lines no source loses stay in use. -/
theorem Extends.used {before after : SourceSlots} (extended : Extends before after) {mid : Mid}
    (used : mid ∈ usedMids before) : mid ∈ usedMids after := by
  obtain ⟨pid, use, holds⟩ := (used_iff_lineOf before mid).mp used
  exact used_of_lineOf (extended pid use mid holds)

namespace WellAssigned

variable {lines : Lines} {slots after : SourceSlots}

/-- A line has one kind. -/
theorem one_kind (assigned : WellAssigned lines slots) {mid : Mid} {kind other : MediaKind}
    (first : (mid, kind) ∈ lines.allMids) (second : (mid, other) ∈ lines.allMids) :
    kind = other := by
  have same : (mid, kind) = (mid, other) :=
    List.inj_on_of_nodup_map assigned.distinct first second rfl
  exact (Prod.mk.inj same).2

/-- Nobody holds a free audio line: the search excludes the slots and the own
audio line, and the own video lines are of the other kind. -/
theorem audio_unheld (assigned : WellAssigned lines slots) {line : Mid × MediaKind}
    (free : lines.freeAudio slots = some line) (use : LineUse) :
    held lines slots use ≠ some line.1 := by
  obtain ⟨listed, notOwn, unused⟩ := freeAudio_spec free
  intro holds
  cases use with
  | ownAudio => exact notOwn holds
  | ownVideo => exact absurd (assigned.one_kind listed (assigned.listed .ownVideo _ holds)) (by simp [LineUse.kind])
  | ownScreen => exact absurd (assigned.one_kind listed (assigned.listed .ownScreen _ holds)) (by simp [LineUse.kind])
  | source pid use => exact unused (used_of_lineOf holds)

/-- Nobody holds a free video line. -/
theorem video_unheld (assigned : WellAssigned lines slots) {line : Mid × MediaKind}
    (free : lines.freeVideo slots = some line) (use : LineUse) :
    held lines slots use ≠ some line.1 := by
  obtain ⟨listed, notCamera, notScreen, unused⟩ := freeVideo_spec free
  intro holds
  cases use with
  | ownAudio => exact absurd (assigned.one_kind listed (assigned.listed .ownAudio _ holds)) (by simp [LineUse.kind])
  | ownVideo => exact notCamera holds
  | ownScreen => exact notScreen holds
  | source pid use => exact unused (used_of_lineOf holds)

/-- A change that gives out no line keeps the assignment. -/
theorem shrink (assigned : WellAssigned lines slots)
    (narrower : ∀ pid use mid, lineOf after pid use = some mid → lineOf slots pid use = some mid) :
    WellAssigned lines after := by
  have release : ∀ use mid, held lines after use = some mid → held lines slots use = some mid := by
    intro use mid holds
    cases use with
    | source pid use => exact narrower pid use mid holds
    | _ => exact holds
  exact ⟨assigned.exclusive.release release,
    fun use mid holds => assigned.listed use mid (release use mid holds), assigned.distinct⟩

/-- Giving one source a free video line for its screen. -/
theorem gain_screen (assigned : WellAssigned lines slots) (source : ParticipantId)
    (slot : SourceSlot) (line : Mid × MediaKind) (stored : slots.lookup source = some slot)
    (free : lines.freeVideo slots = some line) :
    WellAssigned lines (slots.insert source { slot with screenMid := some line.1 }) := by
  have only : ∀ other mid,
      held lines (slots.insert source { slot with screenMid := some line.1 }) other = some mid →
        held lines slots other = some mid ∨
          (other = .source source .screen ∧ mid = line.1) := by
    intro other mid holds
    cases other with
    | source pid use =>
      simp only [held, lineOf_insert] at holds
      by_cases same : pid = source
      · subst same
        rw [if_pos rfl] at holds
        cases use with
        | screen => exact Or.inr ⟨rfl, (Option.some.inj holds).symm⟩
        | audio => exact Or.inl (by simpa [held, lineOf, stored, SourceSlot.line] using holds)
        | video => exact Or.inl (by simpa [held, lineOf, stored, SourceSlot.line] using holds)
      · rw [if_neg same] at holds
        exact Or.inl holds
    | _ => exact Or.inl holds
  refine ⟨assigned.exclusive.grant _ line.1 (assigned.video_unheld free) only, ?_, assigned.distinct⟩
  intro use mid holds
  rcases only use mid holds with old | ⟨rfl, rfl⟩
  · exact assigned.listed use mid old
  · exact (freeVideo_spec free).1

/-- Giving a source without slot a free audio line and a free video line. The
two lines differ because their kinds do. -/
theorem create (assigned : WellAssigned lines slots) (source : ParticipantId) (slot : SourceSlot)
    (audioLine videoLine : Mid × MediaKind) (absent : slots.lookup source = none)
    (freeAudio : lines.freeAudio slots = some audioLine)
    (freeVideo : lines.freeVideo slots = some videoLine)
    (audio : slot.audioMid = audioLine.1) (video : slot.videoMid = videoLine.1)
    (bare : slot.screenMid = none) : WellAssigned lines (slots.insert source slot) := by
  have audioListed := (freeAudio_spec freeAudio).1
  have videoListed := (freeVideo_spec freeVideo).1
  have different : audioLine.1 ≠ videoLine.1 := by
    intro same
    rw [same] at audioListed
    exact absurd (assigned.one_kind audioListed videoListed) (by simp)
  -- First the audio line alone is granted, then the video line.
  let withAudio : LineUse → Option Mid := fun use =>
    if use = .source source .audio then some audioLine.1 else held lines slots use
  have audioGranted : Exclusive withAudio := by
    refine assigned.exclusive.grant (.source source .audio) audioLine.1
      (assigned.audio_unheld freeAudio) ?_
    intro other mid holds
    by_cases granted : other = .source source .audio
    · simp only [withAudio, granted, ↓reduceIte, Option.some.injEq] at holds
      exact Or.inr ⟨granted, holds.symm⟩
    · exact Or.inl (by simpa [withAudio, granted] using holds)
  have videoUnheld : ∀ other, withAudio other ≠ some videoLine.1 := by
    intro other holds
    by_cases granted : other = .source source .audio
    · simp only [withAudio, granted, ↓reduceIte, Option.some.injEq] at holds
      exact different holds
    · simp only [withAudio, granted, ↓reduceIte] at holds
      exact assigned.video_unheld freeVideo other holds
  have only : ∀ other mid, held lines (slots.insert source slot) other = some mid →
      withAudio other = some mid ∨ (other = .source source .video ∧ mid = videoLine.1) := by
    intro other mid holds
    cases other with
    | source pid use =>
      simp only [held, lineOf_insert] at holds
      by_cases same : pid = source
      · subst same
        rw [if_pos rfl] at holds
        cases use with
        | audio =>
          refine Or.inl ?_
          have given : mid = audioLine.1 := by
            rw [← audio]
            exact (Option.some.inj holds).symm
          simp [withAudio, given]
        | video =>
          refine Or.inr ⟨rfl, ?_⟩
          rw [← video]
          exact (Option.some.inj holds).symm
        | screen => simp [SourceSlot.line, bare] at holds
      · rw [if_neg same] at holds
        exact Or.inl (by simpa [withAudio, same, held] using holds)
    | _ => exact Or.inl holds
  refine ⟨audioGranted.grant _ videoLine.1 videoUnheld only, ?_, assigned.distinct⟩
  intro use mid holds
  rcases only use mid holds with earlier | ⟨rfl, rfl⟩
  · by_cases granted : use = .source source .audio
    · subst granted
      simp only [withAudio, ↓reduceIte, Option.some.injEq] at earlier
      exact earlier ▸ audioListed
    · exact assigned.listed use mid (by simpa [withAudio, granted] using earlier)
  · exact videoListed

/-- Asking for a slot keeps the assignment and takes no line away. -/
theorem ensure (assigned : WellAssigned lines slots) (source : ParticipantId)
    (ownAudioPt ownVideoPt : Nat) (midSeqWatermark : Table Mid Nat) (mediaIsScreen : Bool) :
    WellAssigned lines
        (getOrCreateSlot source slots lines ownAudioPt ownVideoPt midSeqWatermark
          mediaIsScreen).2 ∧
      Extends slots
        (getOrCreateSlot source slots lines ownAudioPt ownVideoPt midSeqWatermark
          mediaIsScreen).2 := by
  have outcome := getOrCreateSlot_outcome source slots lines ownAudioPt ownVideoPt
    midSeqWatermark mediaIsScreen
  generalize getOrCreateSlot source slots lines ownAudioPt ownVideoPt midSeqWatermark
    mediaIsScreen = result at outcome ⊢
  cases outcome with
  | kept slot stored settled =>
    have same := lineOf_restore stored (fun use => rfl : ∀ use, slot.line use = slot.line use)
    exact ⟨assigned.shrink (fun pid use mid holds => (same pid use) ▸ holds),
      fun pid use mid holds => (same pid use).symm ▸ holds⟩
  | gainedScreen slot line stored screen bare free =>
    refine ⟨assigned.gain_screen source slot line stored free, ?_⟩
    intro pid use mid holds
    rw [lineOf_insert]
    split
    · rename_i here
      subst here
      have lined : slot.line use = some mid := by simpa [lineOf, stored] using holds
      cases use with
      | audio => exact lined
      | video => exact lined
      | screen => simp [SourceSlot.line, bare] at lined
    · exact holds
  | created audioLine videoLine absent freeAudio freeVideo =>
    refine ⟨assigned.create source _ audioLine videoLine absent freeAudio freeVideo rfl rfl rfl, ?_⟩
    intro pid use mid holds
    rw [lineOf_insert]
    split
    · rename_i here
      subst here
      simp [lineOf, absent] at holds
    · exact holds
  | refused absent exhausted => exact ⟨assigned, Extends.refl slots⟩

end WellAssigned

/-- How things stand in the middle of a turn: lines well assigned, none lost
since the turn began, and every packet handed over on the line its source then
holds for that use. -/
structure Forwarding (before : SourceSlots) (task : Task) (past : List Output) : Prop where
  assigned : WellAssigned task.lines task.sourceSlots
  extended : Extends before task.sourceSlots
  onOwn : ∀ write ∈ writes past,
    lineOf task.sourceSlots write.packet.sourcePid write.packet.use = some write.mid

namespace Forwarding

variable {before : SourceSlots} {task : Task} {past : List Output}

/-- A table that keeps the lines keeps the standing, if the outputs since are
on lines it gives. -/
theorem move (standing : Forwarding before task past) {slots : SourceSlots} {outputs : List Output}
    (assigned : WellAssigned task.lines slots) (extended : Extends task.sourceSlots slots)
    (onOwn : ∀ write ∈ writes outputs,
      lineOf slots write.packet.sourcePid write.packet.use = some write.mid) :
    Forwarding before { task with sourceSlots := slots } (past ++ outputs) := by
  refine ⟨assigned, standing.extended.trans extended, ?_⟩
  intro write member
  rw [writes_append, List.mem_append] at member
  rcases member with earlier | now
  · exact extended _ _ _ (standing.onOwn write earlier)
  · exact onOwn write now

/-- Forwarding one packet keeps the standing. -/
theorem write (standing : Forwarding before task past) (rtc : Rtc) (media : ForwardedMedia) :
    Forwarding before (task.writeForwardedRtp rtc media).1
      (past ++ (task.writeForwardedRtp rtc media).2) := by
  obtain ⟨assigned, extended⟩ := standing.assigned.ensure media.sourcePid task.ownAudioPt
    task.ownVideoPt task.midSeqWatermark media.isScreen
  have outcome := task.writeForwardedRtp_outcome rtc media
  generalize task.writeForwardedRtp rtc media = result at outcome ⊢
  cases outcome with
  | refused noSlot => simpa using standing
  | unlined slot slots ensured missing =>
    have same : (task.ensureSlot media.sourcePid media.isScreen).2 = slots := by rw [ensured]
    exact standing.move (same ▸ assigned) (same ▸ extended) (by simp)
  | sent slot slots mid ensured lined =>
    have same : (task.ensureSlot media.sourcePid media.isScreen).2 = slots := by rw [ensured]
    have stored : slots.lookup media.sourcePid = some slot := Task.ensureSlot_stored ensured
    have unmoved := lineOf_restore stored (line_advance slot media.use)
    refine standing.move ?_ ?_ ?_
    · exact (same ▸ assigned : WellAssigned task.lines slots).shrink
        (fun pid use mid holds => (unmoved pid use) ▸ holds)
    · intro pid use mid holds
      rw [unmoved]
      exact (same ▸ extended : Extends task.sourceSlots slots) pid use mid holds
    · intro write member
      rw [unmoved]
      have written : write =
          { mid, pt := slot.pt media.use, seq := slot.txSeq media.use, packet := media } := by
        cases streamed : rtc.streamTx mid <;>
          simp [writes, Output.written, streamed] at member
        exact member
      rw [written]
      simp [lineOf, stored, lined]

/-- Outputs that hand nothing over, and locals other than the slots, do not
matter to the standing. -/
theorem quiet (standing : Forwarding before task past) {next : Task} {outputs : List Output}
    (lines : next.lines = task.lines) (slots : next.sourceSlots = task.sourceSlots)
    (silent : writes outputs = []) : Forwarding before next (past ++ outputs) := by
  obtain ⟨assigned, extended, onOwn⟩ := standing
  refine ⟨by rw [lines, slots]; exact assigned, by rw [slots]; exact extended, ?_⟩
  intro write member
  rw [writes_append, silent, List.append_nil] at member
  rw [slots]
  exact onOwn write member

/-- A `Media` command keeps the standing. -/
theorem forward (standing : Forwarding before task past) (rtc : Rtc) (media : ForwardedMedia) :
    Forwarding before (task.forward rtc media).1 (past ++ (task.forward rtc media).2) := by
  have announced : ∀ {origin : Task} {record : List Output} (createdNew gained : Bool),
      Forwarding before origin record →
      Forwarding before
        ((origin.writeForwardedRtp rtc media).1.announceSource rtc media.sourcePid
          createdNew gained).1
        (record ++ ((origin.writeForwardedRtp rtc media).2 ++
          ((origin.writeForwardedRtp rtc media).1.announceSource rtc media.sourcePid
            createdNew gained).2)) := by
    intro origin record createdNew gained standing
    obtain ⟨pending, framed⟩ := Task.announceSource_frame rtc
      (origin.writeForwardedRtp rtc media).1 media.sourcePid createdNew gained
    rw [← List.append_assoc]
    exact (standing.write rtc media).quiet (by rw [framed]) (by rw [framed])
      (Task.announceSource_writes ..)
  have outcome := task.forward_outcome rtc media
  generalize task.forward rtc media = result at outcome ⊢
  cases outcome with
  | muted audio silenced => simpa using standing
  | parked heard absent noSlot =>
    exact standing.quiet (by unfold Task.park; simp only; split <;> rfl)
      (by unfold Task.park; simp only; split <;> rfl) rfl
  | live heard slot stored gained => exact announced false gained standing
  | opened heard slot slots opening absent ensured changed stored gained =>
    obtain ⟨assigned, extended⟩ := standing.assigned.ensure media.sourcePid task.ownAudioPt
      task.ownVideoPt task.midSeqWatermark media.isScreen
    have same : (task.ensureSlot media.sourcePid media.isScreen).2 = slots := by rw [ensured]
    have opened : Forwarding before { task with sourceSlots := slots } (past ++ []) :=
      standing.move (same ▸ assigned) (same ▸ extended) (by simp)
    rw [List.append_nil, ← changed] at opened
    exact announced true gained opened

/-- Flushing buffered packets keeps the standing. -/
theorem flush (standing : Forwarding before task past) (rtc : Rtc) (sources : List ParticipantId) :
    Forwarding before (Task.flush rtc task sources).1
      (past ++ (Task.flush rtc task sources).2) := by
  refine Task.flush_keeps (Task.OnFlushed.of_forall (fun _ _ _ => trivial) rtc task past sources)
    (Forwarding before) (fun _ => True) (fun _ _ _ _ _ _ _ _ => trivial) ?_ ?_ ?_ standing
  · intro task past source standing
    have dropped : Forwarding before { task with pendingMedia := task.pendingMedia.erase source }
        (past ++ []) := standing.quiet rfl rfl writes_nil
    rwa [List.append_nil] at dropped
  · intro task past outputs inert standing
    exact standing.quiet rfl rfl inert.writes
  · intro task past media standing _ _
    exact standing.write rtc media

end Forwarding

end Seameet

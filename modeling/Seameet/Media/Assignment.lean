import Seameet.Media.Exclusive

/-!
# The line assignment over whole runs

New lines enter a task's list at three points, the first answer, the announced
lines of a drain and a renegotiation, and each may become one of the receiver's
own lines. A line is fresh when it enters, so taking it as an own line takes it
from nobody. Together with the forwarding laws this gives the assignment after
any run: one use for each line, slots that keep their camera pair until their
source leaves, and packets only on lines of their own source.
-/

namespace Seameet

open Library

/-- The own lines change by one of them becoming the given line, or not at all. -/
def TakesOwn (before : Lines) (line : Mid × MediaKind) (after : Lines) : Prop :=
  after.allMids = before.allMids ∧
    (after = before ∨ ∃ use : LineUse, use.kind = line.2 ∧ ∀ slots other,
      held after slots other = if other = use then some line.1 else held before slots other)

namespace Task

/-- Adopting a line as an own line touches only the lines. -/
theorem adoptOwn_outcome (task : Task) (line : Mid × MediaKind) :
    ∃ lines, task.adoptOwn line = { task with lines } ∧ TakesOwn task.lines line lines := by
  obtain ⟨mid, kind⟩ := line
  cases kind with
  | audio =>
    by_cases missing : task.lines.ownAudioMid.isNone = true
    · refine ⟨{ task.lines with ownAudioMid := some mid }, by simp [adoptOwn, missing], rfl,
        Or.inr ⟨.ownAudio, rfl, ?_⟩⟩
      intro slots other
      cases other <;> simp [held]
    · exact ⟨task.lines, by simp [adoptOwn, missing], rfl, Or.inl rfl⟩
  | video =>
    by_cases missing : task.lines.ownVideoMid.isNone = true
    · refine ⟨{ task.lines with ownVideoMid := some mid }, by simp [adoptOwn, missing], rfl,
        Or.inr ⟨.ownVideo, rfl, ?_⟩⟩
      intro slots other
      cases other <;> simp [held]
    · exact ⟨task.lines, by simp [adoptOwn, missing], rfl, Or.inl rfl⟩

/-- After a renegotiation the taken line may also be the screen line. -/
theorem adoptNegotiated_outcome (task : Task) (line : Mid × MediaKind) :
    ∃ lines pending, task.adoptNegotiated line =
      { task with lines, screenSharePending := pending } ∧ TakesOwn task.lines line lines := by
  obtain ⟨lines, adopted, takes⟩ := task.adoptOwn_outcome line
  obtain ⟨mid, kind⟩ := line
  cases kind with
  | audio => exact ⟨lines, task.screenSharePending, adopted, takes⟩
  | video =>
    by_cases missing : task.lines.ownVideoMid.isNone = true
    · exact ⟨lines, task.screenSharePending, by simpa [adoptNegotiated, missing] using adopted,
        takes⟩
    · by_cases sharing : ((task.screenSharePending || task.screenShareActive) &&
          task.lines.ownScreenMid.isNone) = true
      · refine ⟨{ task.lines with ownScreenMid := some mid }, false,
          by simp only [adoptNegotiated, missing, sharing]; simp, rfl,
          Or.inr ⟨.ownScreen, rfl, ?_⟩⟩
        intro slots other
        cases other <;> simp [held]
      · exact ⟨task.lines, task.screenSharePending,
          by simp only [adoptNegotiated, missing, sharing]; simp, rfl, Or.inl rfl⟩

/-- The new lines of a report are fresh and named once. -/
theorem freshMids_distinct (known reported : List (Mid × MediaKind))
    (distinct : (known.map Prod.fst).Nodup) :
    ((known ++ freshMids known reported).map Prod.fst).Nodup := by
  induction reported generalizing known with
  | nil => simpa [freshMids] using distinct
  | cons line rest inductionHypothesis =>
    unfold freshMids
    by_cases listed : known.any (·.1 = line.1) = true
    · rw [if_pos listed]
      exact inductionHypothesis known distinct
    · rw [if_neg listed]
      have fresh : line.1 ∉ known.map Prod.fst := by
        intro member
        obtain ⟨other, present, same⟩ := List.mem_map.mp member
        exact listed (List.any_eq_true.mpr ⟨other, present, by simpa using same⟩)
      have longer : ((known ++ [line]).map Prod.fst).Nodup := by
        rw [List.map_append, List.nodup_append]
        refine ⟨distinct, by simp, ?_⟩
        intro mid present other single
        have same : other = line.1 := by simpa using single
        exact fun equal => fresh (same ▸ equal ▸ present)
      have appended := inductionHypothesis (known ++ [line]) longer
      simpa only [List.append_assoc, List.singleton_append] using appended

/-- Appending lines one by one appends the list. -/
theorem foldl_push (task : Task) (added : List (Mid × MediaKind)) :
    added.foldl push task =
      { task with lines := { task.lines with allMids := task.lines.allMids ++ added } } := by
  induction added generalizing task with
  | nil => simp
  | cons line rest inductionHypothesis =>
    rw [List.foldl_cons, inductionHypothesis]
    simp [push, List.append_assoc]

end Task

namespace WellAssigned

variable {lines : Lines} {slots : SourceSlots}

/-- Appending fresh lines keeps the assignment, and nobody holds the new ones. -/
theorem append (assigned : WellAssigned lines slots) (added : List (Mid × MediaKind))
    (fresh : ((lines.allMids ++ added).map Prod.fst).Nodup) :
    WellAssigned { lines with allMids := lines.allMids ++ added } slots ∧
      ∀ line ∈ added, ∀ use, held lines slots use ≠ some line.1 := by
  have unmoved : held { lines with allMids := lines.allMids ++ added } slots = held lines slots := by
    funext use
    cases use <;> rfl
  refine ⟨⟨?_, ?_, fresh⟩, ?_⟩
  · rw [unmoved]
    exact assigned.exclusive
  · intro use mid holds
    rw [unmoved] at holds
    exact List.mem_append_left _ (assigned.listed use mid holds)
  · intro line member use holds
    have present : line.1 ∈ lines.allMids.map Prod.fst :=
      List.mem_map.mpr ⟨_, assigned.listed use line.1 holds, rfl⟩
    have again : line.1 ∈ added.map Prod.fst := List.mem_map.mpr ⟨line, member, rfl⟩
    rw [List.map_append] at fresh
    exact (List.nodup_append.mp fresh).2.2 _ present _ again rfl

/-- Taking a listed line nobody holds as an own line keeps the assignment. -/
theorem take_own (assigned : WellAssigned lines slots) {line : Mid × MediaKind} {after : Lines}
    (takes : TakesOwn lines line after) (listed : line ∈ lines.allMids)
    (unheld : ∀ use, held lines slots use ≠ some line.1) : WellAssigned after slots := by
  obtain ⟨sameList, rfl | ⟨use, kind, moved⟩⟩ := takes
  · exact assigned
  · have only : ∀ other mid, held after slots other = some mid →
        held lines slots other = some mid ∨ (other = use ∧ mid = line.1) := by
      intro other mid holds
      rw [moved] at holds
      by_cases same : other = use
      · rw [if_pos same] at holds
        exact Or.inr ⟨same, (Option.some.inj holds).symm⟩
      · rw [if_neg same] at holds
        exact Or.inl holds
    refine ⟨assigned.exclusive.grant use line.1 unheld only, ?_, sameList ▸ assigned.distinct⟩
    intro other mid holds
    rw [sameList]
    rcases only other mid holds with old | ⟨rfl, rfl⟩
    · exact assigned.listed other mid old
    · exact kind ▸ listed

end WellAssigned

/-- The assignment while new lines wait to be adopted: the waiting ones are
listed, distinct and held by nobody. -/
structure Adopting (task : Task) (waiting : List (Mid × MediaKind)) : Prop where
  assigned : WellAssigned task.lines task.sourceSlots
  listed : ∀ line ∈ waiting, line ∈ task.lines.allMids
  distinct : (waiting.map Prod.fst).Nodup
  unheld : ∀ line ∈ waiting, ∀ use, held task.lines task.sourceSlots use ≠ some line.1

/-- Adopting the first waiting line leaves the others waiting: they are other
lines. -/
theorem Adopting.next {task after : Task} {line : Mid × MediaKind} {rest : List (Mid × MediaKind)}
    (adopting : Adopting task (line :: rest)) (slots : after.sourceSlots = task.sourceSlots)
    (takes : TakesOwn task.lines line after.lines) : Adopting after rest := by
  obtain ⟨assigned, listed, distinct, unheld⟩ := adopting
  obtain ⟨absent, restDistinct⟩ := List.nodup_cons.mp distinct
  refine ⟨?_, ?_, restDistinct, ?_⟩
  · rw [slots]
    exact assigned.take_own takes (listed line List.mem_cons_self) (unheld line List.mem_cons_self)
  · intro other member
    rw [takes.1]
    exact listed other (List.mem_cons_of_mem line member)
  · intro other member use holds
    rw [slots] at holds
    have earlier := unheld other (List.mem_cons_of_mem line member)
    obtain ⟨_, same | ⟨taken, _, moved⟩⟩ := takes
    · exact earlier use (same ▸ holds)
    · rw [moved] at holds
      by_cases here : use = taken
      · rw [if_pos here] at holds
        have same : line.1 = other.1 := Option.some.inj holds
        exact absent (same ▸ List.mem_map.mpr ⟨other, member, rfl⟩)
      · rw [if_neg here] at holds
        exact earlier use holds

namespace Task

/-- Adopting the new lines of a renegotiation in order. -/
theorem foldl_adoptNegotiated (task : Task) (waiting : List (Mid × MediaKind))
    (adopting : Adopting task waiting) :
    WellAssigned (waiting.foldl adoptNegotiated task).lines task.sourceSlots ∧
      (waiting.foldl adoptNegotiated task).sourceSlots = task.sourceSlots := by
  induction waiting generalizing task with
  | nil => exact ⟨adopting.assigned, rfl⟩
  | cons line rest inductionHypothesis =>
    obtain ⟨lines, pending, adopted, takes⟩ := task.adoptNegotiated_outcome line
    have later : Adopting (task.adoptNegotiated line) rest := by
      rw [adopted]
      exact adopting.next rfl takes
    have slots : (task.adoptNegotiated line).sourceSlots = task.sourceSlots := by rw [adopted]
    simpa only [List.foldl_cons, slots] using inductionHypothesis _ later

/-- Listing one new line and adopting it at once. -/
theorem push_adoptOwn (task : Task) (line : Mid × MediaKind)
    (assigned : WellAssigned task.lines task.sourceSlots)
    (fresh : ((task.lines.allMids ++ [line]).map Prod.fst).Nodup) :
    WellAssigned ((task.push line).adoptOwn line).lines task.sourceSlots ∧
      ((task.push line).adoptOwn line).lines.allMids = task.lines.allMids ++ [line] ∧
      ((task.push line).adoptOwn line).sourceSlots = task.sourceSlots := by
  obtain ⟨appended, unheld⟩ := assigned.append [line] fresh
  obtain ⟨lines, adopted, takes⟩ := (task.push line).adoptOwn_outcome line
  rw [adopted]
  refine ⟨appended.take_own takes (by simp) ?_, takes.1, rfl⟩
  intro use holds
  have unmoved : held (task.push line).lines task.sourceSlots use =
      held task.lines task.sourceSlots use := by
    cases use <;> rfl
  exact unheld line (by simp) use (unmoved ▸ holds)

/-- Adopting announced lines touches only the lines, and lists no fewer. -/
theorem foldl_addMedia_frame (task : Task) (added : List (Mid × MediaKind)) :
    ∃ lines, added.foldl addMedia task = { task with lines } ∧
      task.lines.allMids ⊆ lines.allMids := by
  induction added generalizing task with
  | nil => exact ⟨task.lines, rfl, List.Subset.refl _⟩
  | cons line rest inductionHypothesis =>
    obtain ⟨lines, remaining, grown⟩ := inductionHypothesis (task.addMedia line)
    refine ⟨lines, ?_, fun known member => grown ?_⟩
    · rw [List.foldl_cons, remaining]
      by_cases listed : task.lines.allMids.any (·.1 = line.1) = true
      · rw [addMedia, if_pos listed]
      · obtain ⟨own, adopted, _⟩ := (task.push line).adoptOwn_outcome line
        rw [addMedia, if_neg listed, adopted]
        rfl
    · by_cases listed : task.lines.allMids.any (·.1 = line.1) = true
      · rwa [addMedia, if_pos listed]
      · obtain ⟨own, adopted, takes, _⟩ := (task.push line).adoptOwn_outcome line
        rw [addMedia, if_neg listed, adopted]
        exact takes ▸ List.mem_append_left _ member

/-- The lines announced by a drain. -/
theorem foldl_addMedia (task : Task) (added : List (Mid × MediaKind))
    (assigned : WellAssigned task.lines task.sourceSlots) :
    WellAssigned (added.foldl addMedia task).lines task.sourceSlots := by
  induction added generalizing task with
  | nil => exact assigned
  | cons line rest inductionHypothesis =>
    rw [List.foldl_cons]
    by_cases listed : task.lines.allMids.any (·.1 = line.1) = true
    · have skipped : task.addMedia line = task := by rw [addMedia, if_pos listed]
      rw [skipped]
      exact inductionHypothesis task assigned
    · have added : task.addMedia line = (task.push line).adoptOwn line := by
        rw [addMedia, if_neg listed]
      have fresh := freshMids_distinct task.lines.allMids [line] assigned.distinct
      rw [freshMids, if_neg listed, freshMids] at fresh
      obtain ⟨now, _, slots⟩ := task.push_adoptOwn line assigned fresh
      rw [added]
      have later := inductionHypothesis _ (slots.symm ▸ now)
      rwa [slots] at later

/-- Listing lines one by one touches only the lines. -/
theorem foldl_listing_frame (task : Task) (added : List (Mid × MediaKind)) :
    ∃ lines, added.foldl (fun task line => (task.push line).adoptOwn line) task =
      { task with lines } := by
  induction added generalizing task with
  | nil => exact ⟨task.lines, rfl⟩
  | cons line rest inductionHypothesis =>
    obtain ⟨first, adopted, _⟩ := (task.push line).adoptOwn_outcome line
    obtain ⟨lines, remaining⟩ := inductionHypothesis ((task.push line).adoptOwn line)
    refine ⟨lines, ?_⟩
    rw [List.foldl_cons, remaining, adopted]
    rfl

/-- A task starts without slots and without waiting packets. -/
theorem start_fresh (pid : ParticipantId) (ownAudioPt ownVideoPt : Nat) (roomId : RoomId)
    (now : Nat) (answer : SdpAnswer) :
    (start pid ownAudioPt ownVideoPt roomId now answer).sourceSlots = ∅ ∧
      (start pid ownAudioPt ownVideoPt roomId now answer).pendingMedia = ∅ := by
  unfold start
  obtain ⟨lines, framed⟩ := foldl_listing_frame _ answer.mids
  exact ⟨by rw [framed], by rw [framed]⟩

/-- A task starts without watermarks. -/
theorem start_unmarked (pid : ParticipantId) (ownAudioPt ownVideoPt : Nat) (roomId : RoomId)
    (now : Nat) (answer : SdpAnswer) :
    (start pid ownAudioPt ownVideoPt roomId now answer).midSeqWatermark = ∅ := by
  unfold start
  obtain ⟨lines, framed⟩ := foldl_listing_frame _ answer.mids
  rw [framed]

/-- The first answer's lines. -/
theorem start_assigned (pid : ParticipantId) (ownAudioPt ownVideoPt : Nat) (roomId : RoomId)
    (now : Nat) (answer : SdpAnswer) :
    WellAssigned (start pid ownAudioPt ownVideoPt roomId now answer).lines
      (start pid ownAudioPt ownVideoPt roomId now answer).sourceSlots := by
  have listing : ∀ (added : List (Mid × MediaKind)) (task : Task),
      WellAssigned task.lines task.sourceSlots →
      ((task.lines.allMids ++ added).map Prod.fst).Nodup →
      WellAssigned (added.foldl (fun task line => (task.push line).adoptOwn line) task).lines
        (added.foldl (fun task line => (task.push line).adoptOwn line) task).sourceSlots := by
    intro added
    induction added with
    | nil => exact fun task assigned _ => assigned
    | cons line rest inductionHypothesis =>
      intro task assigned fresh
      have split : task.lines.allMids ++ line :: rest = task.lines.allMids ++ [line] ++ rest := by
        simp
      have first : ((task.lines.allMids ++ [line]).map Prod.fst).Nodup := by
        rw [split, List.map_append] at fresh
        exact (List.nodup_append.mp fresh).1
      obtain ⟨adopted, list, slots⟩ := task.push_adoptOwn line assigned first
      rw [List.foldl_cons]
      exact inductionHypothesis _ (slots.symm ▸ adopted) (by rw [list, ← split]; exact fresh)
  refine listing answer.mids _ ⟨?_, ?_, ?_⟩ (by simpa using answer.distinct)
  · intro use other mid holds
    cases use <;> simp [held, lineOf] at holds
  · intro use mid holds
    cases use <;> simp [held, lineOf] at holds
  · simp

/-- Learning an answer's lines touches only the lines, and lists no fewer. -/
theorem negotiated_frame (rtc : Rtc) (task : Task) (sdp : String) :
    ∃ lines pending, task.negotiated rtc sdp = { task with lines, screenSharePending := pending } ∧
      task.lines.allMids ⊆ lines.allMids := by
  have adopting : ∀ (waiting : List (Mid × MediaKind)) (learned : Task),
      ∃ lines pending, waiting.foldl adoptNegotiated learned =
        { learned with lines, screenSharePending := pending } ∧
          lines.allMids = learned.lines.allMids := by
    intro waiting
    induction waiting with
    | nil => exact fun learned => ⟨learned.lines, learned.screenSharePending, rfl, rfl⟩
    | cons line rest inductionHypothesis =>
      intro learned
      obtain ⟨_, _, adopted, takes, _⟩ := learned.adoptNegotiated_outcome line
      obtain ⟨lines, pending, remaining, same⟩ := inductionHypothesis (learned.adoptNegotiated line)
      rw [adopted] at same
      refine ⟨lines, pending, ?_, same.trans takes⟩
      rw [List.foldl_cons, remaining, adopted]
  unfold negotiated handleRenegotiation
  cases rtc.acceptOffer sdp with
  | none => exact ⟨task.lines, task.screenSharePending, rfl, List.Subset.refl _⟩
  | some answer =>
    obtain ⟨lines, pending, learned, same⟩ := adopting (freshMids task.lines.allMids answer.mids)
      ((freshMids task.lines.allMids answer.mids).foldl push task)
    rw [foldl_push] at same
    refine ⟨lines, pending, ?_, ?_⟩
    · simp only [learned]
      rw [foldl_push]
    · rw [same]
      exact fun line member => List.mem_append_left _ member

/-- Learning an answer's lines keeps the assignment: each is fresh when it is
learnt. -/
theorem negotiated_assigned (rtc : Rtc) (task : Task) (sdp : String)
    (assigned : WellAssigned task.lines task.sourceSlots) :
    WellAssigned (task.negotiated rtc sdp).lines (task.negotiated rtc sdp).sourceSlots := by
  unfold negotiated handleRenegotiation
  cases rtc.acceptOffer sdp with
  | none => exact assigned
  | some answer =>
    have distinct := freshMids_distinct task.lines.allMids answer.mids assigned.distinct
    obtain ⟨appended, unheld⟩ := assigned.append (freshMids task.lines.allMids answer.mids) distinct
    simp only [foldl_push]
    rw [List.map_append] at distinct
    obtain ⟨adopted, slots⟩ := foldl_adoptNegotiated
      { task with lines := { task.lines with
          allMids := task.lines.allMids ++ freshMids task.lines.allMids answer.mids } }
      (freshMids task.lines.allMids answer.mids)
      ⟨appended, fun line member => List.mem_append_right _ member,
        (List.nodup_append.mp distinct).2.1, fun line member use => by
          have apart := unheld line member use
          cases use <;> exact apart⟩
    rw [slots]
    exact adopted

end Task

/-- What any turn does to the assignment: it keeps it, it takes the camera pair
of no source but one that leaves, and it hands packets over on lines of their
own source only. -/
structure Turned (before after : Task) (outputs : List Output) (left : ParticipantId → Prop) :
    Prop where
  assigned : WellAssigned after.lines after.sourceSlots
  kept : ∀ pid use mid, lineOf before.sourceSlots pid use = some mid → use ≠ .screen →
    ¬left pid → lineOf after.sourceSlots pid use = some mid
  onOwn : ∀ write ∈ writes outputs,
    lineOf after.sourceSlots write.packet.sourcePid write.packet.use = some write.mid

/-- A turn's standing after forwarding is such a turn. -/
theorem Forwarding.turned {before task : Task} {outputs : List Output}
    (standing : Forwarding before.sourceSlots task outputs) (left : ParticipantId → Prop) :
    Turned before task outputs left :=
  ⟨standing.assigned, fun pid use mid holds _ _ => standing.extended pid use mid holds,
    standing.onOwn⟩

namespace Task

variable (rtc : Rtc) (task : Task)

/-- A turn that moves no line and hands nothing over. -/
theorem turned_quiet {task after : Task} {outputs : List Output}
    (assigned : WellAssigned task.lines task.sourceSlots) (lines : after.lines = task.lines)
    (slots : after.sourceSlots = task.sourceSlots) (silent : writes outputs = [])
    {left : ParticipantId → Prop} : Turned task after outputs left := by
  have standing : Forwarding task.sourceSlots task [] :=
    ⟨assigned, Extends.refl _, by simp⟩
  exact (standing.quiet lines slots silent).turned left

/-- The drain part of the loop only lists further lines. -/
theorem drainOutputs_quiet (events : List RtcEvent) :
    (task.drainOutputs rtc events).1.sourceSlots = task.sourceSlots ∧
      (task.drainOutputs rtc events).1.midSeqWatermark = task.midSeqWatermark ∧
      (task.drainOutputs rtc events).1.pendingMedia = task.pendingMedia ∧
      task.lines.allMids ⊆ (task.drainOutputs rtc events).1.lines.allMids ∧
      writes (task.drainOutputs rtc events).2 = [] := by
  obtain ⟨lines, slots, watermarks, pending, silent⟩ := task.drainEvents_quiet rtc events
  obtain ⟨listed, added, grown⟩ := (drainEvents rtc task events).1.foldl_addMedia_frame
    (addedMedia events)
  obtain ⟨started, framed, quiet⟩ := ((addedMedia events).foldl addMedia
    (drainEvents rtc task events).1).startMedia_quiet rtc
  have after : (task.drainOutputs rtc events).1 =
      { (drainEvents rtc task events).1 with lines := listed, mediaStarted := started } := by
    simp only [drainOutputs]
    rw [framed, added]
  rw [after]
  refine ⟨slots, watermarks, pending, lines ▸ grown, ?_⟩
  simp only [drainOutputs, writes_append, silent, quiet, List.append_nil]

/-- The drain part of the loop adopts announced lines only. -/
theorem drainOutputs_turned (assigned : WellAssigned task.lines task.sourceSlots)
    (events : List RtcEvent) (left : ParticipantId → Prop) :
    Turned task (task.drainOutputs rtc events).1 (task.drainOutputs rtc events).2 left := by
  obtain ⟨lines, slots, _, _, _⟩ := task.drainEvents_quiet rtc events
  have drained : WellAssigned (drainEvents rtc task events).1.lines
      (drainEvents rtc task events).1.sourceSlots := by
    rw [lines, slots]
    exact assigned
  have listed := (drainEvents rtc task events).1.foldl_addMedia (addedMedia events) drained
  obtain ⟨started, framed, _⟩ := ((addedMedia events).foldl addMedia
    (drainEvents rtc task events).1).startMedia_quiet rtc
  obtain ⟨unmoved, _, _, _, silent⟩ := task.drainOutputs_quiet rtc events
  refine ⟨?_, fun pid use mid holds _ _ => unmoved ▸ holds, by simp [silent]⟩
  rw [unmoved, ← slots]
  simp only [drainOutputs, framed]
  exact listed

/-- A departure frees the lines of the source that left. -/
theorem peerLeft_turned (assigned : WellAssigned task.lines task.sourceSlots)
    (source : ParticipantId) : Turned task (task.peerLeft source) [] (· = source) := by
  have gone : ∀ pid use, lineOf (task.peerLeft source).sourceSlots pid use =
      if pid = source then none else lineOf task.sourceSlots pid use := by
    intro pid use
    simp only [peerLeft, lineOf, Table.lookup_erase_eq]
    split <;> rfl
  refine ⟨?_, ?_, by simp⟩
  · refine assigned.shrink ?_
    intro pid use mid holds
    rw [gone] at holds
    split at holds
    · simp at holds
    · exact holds
  · intro pid use mid holds _ stays
    rw [gone, if_neg stays]
    exact holds

/-- A stopped screen share frees the source's screen line. -/
theorem sourceScreenStopped_turned (assigned : WellAssigned task.lines task.sourceSlots)
    (source : ParticipantId) (left : ParticipantId → Prop) :
    Turned task (task.sourceScreenStopped source) [] left := by
  have freed : ∀ pid use, lineOf (task.sourceScreenStopped source).sourceSlots pid use =
      if pid = source ∧ use = .screen then none else lineOf task.sourceSlots pid use := by
    intro pid use
    simp only [sourceScreenStopped, lineOf, Table.lookup_modify]
    by_cases same : pid = source
    · subst same
      cases use <;> cases task.sourceSlots.lookup pid <;> simp [SourceSlot.line]
    · simp [same]
  refine ⟨?_, ?_, by simp⟩
  · refine assigned.shrink ?_
    intro pid use mid holds
    rw [freed] at holds
    split at holds
    · simp at holds
    · exact holds
  · intro pid use mid holds camera _
    rw [freed, if_neg (fun screen => camera screen.2)]
    exact holds

/-- Giving up the own screen line, or asking for one, takes nothing. -/
theorem setScreenShare_turned (assigned : WellAssigned task.lines task.sourceSlots) (active : Bool)
    (left : ParticipantId → Prop) : Turned task (task.setScreenShare active) [] left := by
  cases active with
  | true => apply turned_quiet assigned <;> rfl
  | false =>
    have released : ∀ use mid, held (task.setScreenShare false).lines task.sourceSlots use = some mid →
        held task.lines task.sourceSlots use = some mid := by
      intro use mid holds
      cases use with
      | ownScreen => simp [setScreenShare, held] at holds
      | _ => exact holds
    refine ⟨⟨assigned.exclusive.release released, ?_, assigned.distinct⟩,
      fun _ _ _ holds _ _ => holds, by simp⟩
    intro use mid holds
    exact assigned.listed use mid (released use mid holds)

/-- A renegotiation adopts lines, then forwards what was buffered. -/
theorem renegotiate_turned (assigned : WellAssigned task.lines task.sourceSlots) (sdp : String)
    (left : ParticipantId → Prop) :
    Turned task (task.renegotiate rtc sdp).1 (task.renegotiate rtc sdp).2 left := by
  obtain ⟨lines, pending, framed, _⟩ := task.negotiated_frame rtc sdp
  have unmoved : (task.negotiated rtc sdp).sourceSlots = task.sourceSlots := by rw [framed]
  have standing : Forwarding task.sourceSlots (task.negotiated rtc sdp) [] :=
    ⟨task.negotiated_assigned rtc sdp assigned, unmoved ▸ Extends.refl _, by simp⟩
  have flushed := (standing.flush rtc
    (rtc.arrange (task.negotiated rtc sdp).pendingMedia.keys)).turned left
  refine ⟨flushed.assigned, flushed.kept, ?_⟩
  rw [renegotiate_writes]
  exact flushed.onOwn

/-- Every command keeps the assignment. -/
theorem handle_turned (assigned : WellAssigned task.lines task.sourceSlots) (cmd : PeerCmd) :
    Turned task (task.handle rtc cmd).1 (task.handle rtc cmd).2
      (fun pid => cmd = .peerLeft pid) := by
  have unconcerned : idle cmd = true → Turned task (task.handle rtc cmd).1 (task.handle rtc cmd).2
      (fun pid => cmd = .peerLeft pid) := by
    intro unconcerned
    obtain ⟨lines, slots, _, _, silent⟩ := task.handle_idle rtc cmd unconcerned
    exact turned_quiet assigned lines slots silent
  cases cmd with
  | media packet =>
    have standing : Forwarding task.sourceSlots task [] := ⟨assigned, Extends.refl _, by simp⟩
    exact (standing.forward rtc packet).turned _
  | renegotiationOffer sdp => exact task.renegotiate_turned rtc assigned sdp _
  | screenShareActive active => exact task.setScreenShare_turned assigned active _
  | sourceScreenStopped source => exact task.sourceScreenStopped_turned assigned source _
  | peerLeft source =>
    obtain ⟨still, kept, onOwn⟩ := task.peerLeft_turned assigned source
    refine ⟨still, ?_, onOwn⟩
    intro pid use mid holds camera stays
    exact kept pid use mid holds camera (fun same => stays (same ▸ rfl))
  | _ => exact unconcerned rfl

/-- Every turn keeps the assignment. -/
theorem turn_turned (assigned : WellAssigned task.lines task.sourceSlots) (input : Rtc × Turn) :
    Turned task (task.turn input).1 (task.turn input).2
      (fun pid => input.2 = .command (.peerLeft pid)) := by
  obtain ⟨rtc, taken⟩ := input
  cases taken with
  | drained events => exact task.drainOutputs_turned rtc assigned events _
  | command cmd =>
    obtain ⟨still, kept, onOwn⟩ := task.handle_turned rtc assigned cmd
    refine ⟨still, ?_, onOwn⟩
    intro pid use mid holds camera stays
    exact kept pid use mid holds camera (fun same => stays (congrArg Turn.command same))

/-- Every run keeps the assignment. -/
theorem run_assigned (assigned : WellAssigned task.lines task.sourceSlots)
    (turns : List (Rtc × Turn)) :
    WellAssigned (run task turns).1.lines (run task turns).1.sourceSlots :=
  traced_keeps_state (fun task => WellAssigned task.lines task.sourceSlots) turns
    (fun task input _ assigned => (task.turn_turned assigned input).assigned) task assigned

/-- After any run every line has one use, and the next turn, whatever it is,
keeps the camera pair of every slot whose source it does not remove and hands
packets over on lines of their own source, never on the receiver's own.

The assignment is an invariant of the turns: no line is given out twice, and the slots of
one turn are those of the turn before with lines added. What a turn hands over is looked up
in the slots that it leaves. -/
theorem line_assignment_exclusive (pid : ParticipantId) (ownAudioPt ownVideoPt : Nat)
    (roomId : RoomId) (now : Nat) (answer : SdpAnswer) (turns : List (Rtc × Turn))
    (input : Rtc × Turn) :
    let reached := (run (start pid ownAudioPt ownVideoPt roomId now answer) turns).1
    let after := (reached.turn input).1
    WellAssigned reached.lines reached.sourceSlots ∧
      (∀ source slot, reached.sourceSlots.lookup source = some slot →
        input.2 ≠ .command (.peerLeft source) →
        ∃ kept, after.sourceSlots.lookup source = some kept ∧
          kept.audioMid = slot.audioMid ∧ kept.videoMid = slot.videoMid) ∧
      ∀ write ∈ writes (reached.turn input).2,
        lineOf after.sourceSlots write.packet.sourcePid write.packet.use = some write.mid ∧
          after.lines.ownAudioMid ≠ some write.mid ∧
          after.lines.ownVideoMid ≠ some write.mid ∧
          after.lines.ownScreenMid ≠ some write.mid := by
  intro reached after
  have assigned : WellAssigned reached.lines reached.sourceSlots :=
    run_assigned _ (start_assigned pid ownAudioPt ownVideoPt roomId now answer) turns
  obtain ⟨still, kept, onOwn⟩ := reached.turn_turned assigned input
  refine ⟨assigned, ?_, ?_⟩
  · intro source slot stored stays
    have camera := kept source .audio slot.audioMid (by simp [lineOf, stored, SourceSlot.line])
      (by simp) stays
    have picture := kept source .video slot.videoMid (by simp [lineOf, stored, SourceSlot.line])
      (by simp) stays
    obtain ⟨later, present, audio⟩ := Option.bind_eq_some_iff.mp camera
    obtain ⟨again, alsoPresent, video⟩ := Option.bind_eq_some_iff.mp picture
    obtain rfl : later = again := Option.some.inj (present.symm.trans alsoPresent)
    exact ⟨later, present, Option.some.inj audio, Option.some.inj video⟩
  · intro write member
    have source := onOwn write member
    have apart : ∀ use : LineUse, held after.lines after.sourceSlots use = some write.mid →
        use = .source write.packet.sourcePid write.packet.use := fun use holds =>
      still.exclusive use _ write.mid holds source
    refine ⟨source, ?_, ?_, ?_⟩
    · exact fun own => absurd (apart .ownAudio own) (by simp)
    · exact fun own => absurd (apart .ownVideo own) (by simp)
    · exact fun own => absurd (apart .ownScreen own) (by simp)

end Task

end Seameet

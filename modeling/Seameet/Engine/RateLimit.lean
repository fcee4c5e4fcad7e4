import Seameet.Library.Quota
import Seameet.Engine.Stepping

/-!
# The rate limit

The meet server answers the engine's rate check from a table: for each participant, when
the present window began and how many messages were checked since. The check is asked
after the first `Join`, for the participant that the connection is bound to, so that all
connections of a participant share a window.

The windows are fixed ones of a second each. Of a participant's messages, fewer than
twice the limit are handled in any second, over all of its connections, and a message is
refused only when as many as the limit were admitted in the second before it.
-/

namespace Seameet

open Library

/-- Messages of a participant that are admitted in a window. -/
def rateLimitMsgs : UInt32 := 200

/-- The length of a window, in nanoseconds. -/
def rateLimitWindow : Nat := 1000000000

/-- When a participant's window began, and the messages since then. -/
abbrev RateState := Table ParticipantId (Nat × UInt32)

/-- The rate check of the meet server. -/
def onRateCheck (state : RateState) (pid : ParticipantId) (now : Nat) : Bool × RateState :=
  let entry := (state.lookup pid).getD (now, 0)
  let entry := if rateLimitWindow ≤ now - entry.1 then (now, 0) else entry
  let entry := (entry.1, entry.2 + 1)
  (decide (entry.2 ≤ rateLimitMsgs), state.insert pid entry)

/-- A message that was checked, and whether it was handled. -/
structure Check where
  participant : ParticipantId
  use : Use
  handled : Bool
  deriving DecidableEq

/-- A server whose rate check is that of the meet server, with the present time and what
was checked so far. -/
structure LimitedWorld where
  world : World
  rateState : RateState
  now : Nat
  checks : List Check

/-- What happens next: time passes, or something happens in the engine. -/
inductive LimitedEvent where
  | elapses (duration : Nat)
  | engine (event : Event)

/-- Whether a task is past the top of its loop. -/
def Point.busy : Point → Bool
  | .idle => false
  | _ => true

/-- The participant whose rate is checked when an event happens. -/
def World.checked (world : World) : Event → Option ParticipantId
  | .receive id _ (some _) _ _ =>
      (world.connections.lookup id).bind fun connection =>
        if connection.point.busy then none else connection.participantId
  | _ => none

/-- Whether the message that an event brings is handled. -/
def World.handles (after : World) : Event → Bool
  | .receive id _ _ _ _ =>
      (after.connections.lookup id).any fun connection => connection.point.busy
  | _ => false

/-- The same event, with this answer to the rate check. -/
def Event.answered (rateOk : Bool) : Event → Event
  | .receive id raw parsed auth _ => .receive id raw parsed auth rateOk
  | event => event

namespace LimitedWorld

/-- A server nobody has connected to. -/
def new (e2eeRequired : Bool) : LimitedWorld :=
  { world := .new e2eeRequired, rateState := ∅, now := 0, checks := [] }

/-- One step of the server. -/
def step (config : Config) (limited : LimitedWorld) : LimitedEvent → Option LimitedWorld
  | .elapses duration => some { limited with now := limited.now + duration }
  | .engine event =>
      match limited.world.checked event with
      | none => (limited.world.step config event).map fun world => { limited with world }
      | some pid =>
          let (ok, rateState) := onRateCheck limited.rateState pid limited.now
          (limited.world.step config (event.answered ok)).map fun world =>
            { limited with
              world, rateState
              checks := limited.checks ++ [{
                participant := pid, use := ⟨limited.now, ok⟩
                handled := world.handles event }] }

/-- The count of a participant's messages does not wrap around in a window. -/
def Fits (limited : LimitedWorld) : LimitedEvent → Prop
  | .elapses _ => True
  | .engine event => ∀ pid ∈ limited.world.checked event,
      ∀ entry ∈ limited.rateState.lookup pid, entry.2.toNat + 1 < 4294967296

instance (limited : LimitedWorld) (event : LimitedEvent) : Decidable (limited.Fits event) := by
  unfold Fits
  split <;> infer_instance

/-- The uses that a participant made of its quota. -/
def usesOf (limited : LimitedWorld) (pid : ParticipantId) : List Use :=
  (limited.checks.filter fun check => check.participant = pid).map Check.use

section Counting

/-- The quota that an entry of the table stands for. -/
def quotaOf (entry : Nat × UInt32) : Quota := ⟨entry.1, entry.2.toNat⟩

/-- The check counts one use of the participant's quota, and of no other. -/
theorem onRateCheck_take (state : RateState) (pid tested : ParticipantId) (now : Nat)
    (fits : ∀ entry ∈ state.lookup pid, entry.2.toNat + 1 < 4294967296) :
    let taken := Quota.take 200 rateLimitWindow now ((state.lookup pid).map quotaOf)
    (onRateCheck state pid now).1 = taken.1 ∧
      ((onRateCheck state pid now).2.lookup tested).map quotaOf =
        if tested = pid then some taken.2 else (state.lookup tested).map quotaOf := by
  -- adding one does not wrap, so that the numbers agree
  have counts : ∀ used : UInt32, used.toNat + 1 < 4294967296 →
      (used + 1).toNat = used.toNat + 1 ∧
        decide (used + 1 ≤ rateLimitMsgs) = decide (used.toNat + 1 ≤ 200) := by
    intro used below
    have sum : (used + 1).toNat = used.toNat + 1 := by
      rw [UInt32.toNat_add]
      exact Nat.mod_eq_of_lt below
    refine ⟨sum, ?_⟩
    rw [← sum]
    exact decide_eq_decide.mpr UInt32.le_iff_toNat_le
  unfold onRateCheck Quota.take Quota.current
  simp only [Table.lookup_insert_eq]
  cases known : state.lookup pid with
  | none =>
    obtain ⟨sum, within⟩ := counts 0 (by decide)
    have fresh : ¬ rateLimitWindow ≤ now - now := by
      rw [Nat.sub_self]
      decide
    simp only [Option.getD_none, Option.map_none, if_neg fresh]
    refine ⟨within, ?_⟩
    split
    · exact congrArg (fun used => some (Quota.mk now used)) sum
    · rfl
  | some entry =>
    simp only [Option.getD_some, Option.map_some, quotaOf]
    by_cases passed : rateLimitWindow ≤ now - entry.1
    · obtain ⟨sum, within⟩ := counts 0 (by decide)
      simp only [if_pos passed]
      refine ⟨within, ?_⟩
      split
      · exact congrArg (fun used => some (Quota.mk now used)) sum
      · rfl
    · obtain ⟨sum, within⟩ := counts entry.2 (fits entry known)
      simp only [if_neg passed]
      refine ⟨within, ?_⟩
      split
      · exact congrArg (fun used => some (Quota.mk entry.1 used)) sum
      · rfl

end Counting

section Limits

variable {config : Config} {limited : LimitedWorld}

/-- A message that is refused is not handled. -/
theorem refused_unhandled {world after : World} {event : Event} {pid : ParticipantId}
    (checked : world.checked event = some pid)
    (stepped : world.step config (event.answered false) = some after) : after.handles event = false := by
  cases event with
  | receive id raw parsed auth rateOk =>
    cases parsed with
    | none => cases checked
    | some message =>
      simp only [Event.answered, World.step, World.turned] at stepped
      obtain ⟨connection, present, turned⟩ := Option.bind_eq_some_iff.mp stepped
      obtain ⟨turn, taken, rfl⟩ := Option.map_eq_some_iff.mp turned
      obtain ⟨idle, rfl⟩ := World.whenIdle_eq_some taken
      rw [World.checked, present] at checked
      have bound : connection.participantId = some pid := by
        simpa [idle, Point.busy] using checked
      have rests : (connection.receive config world id raw (some message) auth false).connection.point =
          .idle := by
        simp only [Connection.receive, bound, Connection.receiveNext, Bool.false_and,
          Bool.false_eq_true, if_false]
        cases message <;> exact idle
      simp [World.handles, World.commit, rests, Point.busy]
  | _ => cases checked

/-- What the server keeps of its checks. -/
structure Kept (limited : LimitedWorld) : Prop where
  metered : ∀ pid, match (limited.rateState.lookup pid).map quotaOf with
    | none => limited.usesOf pid = []
    | some quota => Metered 200 rateLimitWindow quota (limited.usesOf pid)
  past : ∀ check ∈ limited.checks, check.use.time ≤ limited.now
  admitted : ∀ check ∈ limited.checks, check.handled = true → check.use.admitted = true

/-- A checked message is a use of its participant's quota, and of no other. -/
theorem usesOf_checked (check : Check) (pid : ParticipantId) {after : LimitedWorld}
    (checks : after.checks = limited.checks ++ [check]) :
    after.usesOf pid = limited.usesOf pid ++ if pid = check.participant then [check.use] else [] := by
  unfold usesOf
  rw [checks, List.filter_append, List.map_append]
  by_cases same : pid = check.participant
  · rw [if_pos same, List.filter_singleton, decide_eq_true same.symm]
    rfl
  · rw [if_neg same, List.filter_singleton, decide_eq_false (Ne.symm same)]
    rfl

/-- One step keeps the quotas. -/
theorem step_kept (before : LimitedWorld) (event : LimitedEvent) (after : LimitedWorld)
    (kept : before.Kept) (fits : before.Fits event) (stepped : before.step config event = some after) :
    after.Kept := by
  cases event with
  | elapses duration =>
    obtain rfl := Option.some.inj stepped
    refine ⟨kept.metered, ?_, kept.admitted⟩
    intro check member
    exact Nat.le_trans (kept.past check member) (Nat.le_add_right before.now duration)
  | engine event =>
    simp only [step] at stepped
    split at stepped
    · obtain ⟨world, _, rfl⟩ := Option.map_eq_some_iff.mp stepped
      exact ⟨kept.metered, kept.past, kept.admitted⟩
    · next pid checked =>
      obtain ⟨world, moved, rfl⟩ := Option.map_eq_some_iff.mp stepped
      have counted := fun tested =>
        onRateCheck_take before.rateState pid tested before.now (fits pid checked)
      have ordered : ∀ use ∈ before.usesOf pid, use.time ≤ before.now := by
        intro use member
        obtain ⟨check, among, rfl⟩ := List.mem_map.mp member
        exact kept.past check (List.mem_filter.mp among).1
      refine ⟨?_, ?_, ?_⟩
      · intro tested
        rw [usesOf_checked _ tested rfl, (counted tested).2]
        have metered := kept.metered tested
        by_cases same : tested = pid
        · subst same
          rw [if_pos rfl, if_pos rfl, (counted tested).1]
          cases known : (before.rateState.lookup tested).map quotaOf with
          | none =>
            rw [known] at metered
            rw [metered]
            exact .starts (by decide) (by decide)
          | some quota =>
            rw [known] at metered
            exact metered.take (by decide) (by decide) ordered
        · rw [if_neg same, if_neg same, List.append_nil]
          exact metered
      · intro check member
        rcases List.mem_append.mp member with old | new
        · exact kept.past check old
        · obtain rfl := List.mem_singleton.mp new
          exact Nat.le_refl _
      · intro check member handled
        rcases List.mem_append.mp member with old | new
        · exact kept.admitted check old handled
        · obtain rfl := List.mem_singleton.mp new
          show (onRateCheck before.rateState pid before.now).1 = true
          cases answer : (onRateCheck before.rateState pid before.now).1 with
          | true => rfl
          | false =>
            rw [answer] at moved
            rw [refused_unhandled checked moved] at handled
            cases handled

/-- In every state that is reached the checks are kept as the limiter counts them. -/
theorem reached_kept {e2eeRequired : Bool}
    (reached : Reaches (step config) Fits (.new e2eeRequired) limited) : limited.Kept :=
  Reaches.invariant Kept ⟨fun _ => rfl, fun _ member => absurd member List.not_mem_nil,
    fun _ member => absurd member List.not_mem_nil⟩ step_kept reached

/-- Fewer than twice the limit of a participant's messages are handled in any second, over
all of its connections. A refused message is not handled, and as many as the limit were
admitted in the second before it.

A window of the limiter begins with a check and admits the limit. A second that meets two
windows does not meet the check that began the first of them. -/
theorem handled_limited {e2eeRequired : Bool}
    (reached : Reaches (step config) Fits (.new e2eeRequired) limited) :
    (∀ pid first, (limited.checks.countP fun check =>
        decide (check.participant = pid) && check.handled &&
          decide (first ≤ check.use.time ∧ check.use.time < first + rateLimitWindow)) < 400) ∧
      ∀ earlier check later, limited.checks = earlier ++ check :: later →
        check.use.admitted = false → check.handled = false ∧
          200 ≤ earlier.countP fun other =>
            decide (other.participant = check.participant) && other.use.admitted &&
              decide (check.use.time < other.use.time + rateLimitWindow) := by
  have kept := reached_kept reached
  refine ⟨?_, ?_⟩
  · intro pid first
    have spanned : (limited.usesOf pid).countP (Use.within first (first + rateLimitWindow)) < 400 := by
      have metered := kept.metered pid
      split at metered
      · rw [metered, List.countP_nil]
        decide
      · exact metered.spanned first
    refine Nat.lt_of_le_of_lt ?_ spanned
    rw [usesOf, List.countP_map, List.countP_filter]
    refine List.countP_mono_left fun check member counted => ?_
    simp only [Bool.and_eq_true, decide_eq_true_eq] at counted
    obtain ⟨⟨same, handled⟩, late, early⟩ := counted
    simp only [Function.comp, Use.within, Use.since, Bool.and_eq_true, decide_eq_true_eq]
    exact ⟨⟨⟨kept.admitted check member handled, late⟩, early⟩, same⟩
  · intro earlier check later whole rejected
    refine ⟨?_, ?_⟩
    · cases handled : check.handled with
      | false => rfl
      | true =>
        have member : check ∈ limited.checks := whole ▸ List.mem_append_right earlier List.mem_cons_self
        rw [kept.admitted check member handled] at rejected
        cases rejected
    · have own : limited.usesOf check.participant =
          (earlier.filter fun other => other.participant = check.participant).map Check.use ++
            check.use ::
              (later.filter fun other => other.participant = check.participant).map Check.use := by
        rw [usesOf, whole, List.filter_append, List.map_append, List.filter_cons_of_pos (by simp)]
        rfl
      have metered := kept.metered check.participant
      split at metered
      · rw [metered] at own
        have short := congrArg List.length own
        simp at short
      · have full := metered.refused _ _ _ own rejected
        rw [List.countP_map, List.countP_filter] at full
        refine Nat.le_trans full (List.countP_mono_left fun other _ counted => ?_)
        simp only [Function.comp, Use.within, Use.since, Bool.and_eq_true, decide_eq_true_eq] at counted
        simp only [Bool.and_eq_true, decide_eq_true_eq]
        exact ⟨⟨counted.2, counted.1.1.1⟩, by omega⟩

end Limits

section Sample

/-- A participant joins, sends two hundred messages for no room, and then one for its
room. -/
def flood : List LimitedEvent :=
  (Event.connect :: Event.firstJoin 1 ⟨7⟩ "r" ++
      List.replicate 200 (Event.receive 1 "" (some (.muteAudio ⟨7⟩ "")) (.ok ()) true) ++
        [Event.receive 1 "" (some (.muteAudio ⟨7⟩ "r")) (.ok ()) true]).map .engine

/-- The server after that. -/
def flooded : LimitedWorld :=
  (walk (step .sfuDefault) Fits (new false) flood).getD (new false)

/-- The flooded server is reached from the fresh one. -/
theorem flooded_reached : Reaches (step .sfuDefault) Fits (new false) flooded :=
  walk_reaches_end (step .sfuDefault) Fits (new false) flood (by decide +kernel)

/-- In the flooded server the two hundred checks before the last are admitted in its window. -/
theorem handled_limited_flooded :
    flooded.checks.length = 201 ∧
      200 ≤ (flooded.checks.take 200).countP fun other =>
        decide (other.participant = ⟨7⟩) && other.use.admitted &&
          decide (0 < other.use.time + rateLimitWindow) := by
  refine ⟨by decide +kernel, ?_⟩
  have split : flooded.checks = flooded.checks.take 200 ++ ⟨⟨7⟩, ⟨0, false⟩, false⟩ :: [] := by
    decide +kernel
  exact ((handled_limited flooded_reached).2 _ _ _ split rfl).2

end Sample

end LimitedWorld

end Seameet

import Mathlib.Order.Defs.PartialOrder

/-!
# Runs of a partial step function

A system is a partial step function: an event the present state refuses gives
none. A run takes events in any order, each one admitted by a guard on the
state before it; the guard that admits everything gives all runs. A law about
every state of every run needs two things only, that it holds at the start and
that one admitted step keeps it.

Concrete runs are evaluated by folding the step over a list of events, and the
fold's result is then a reached state.
-/

namespace Library

universe u v
variable {σ : Type u} {ε : Type v}

/-- The guard that admits every step. -/
def always : σ → ε → Prop := fun _ _ => True

/-- The states reached from a start by steps the guard admits. -/
inductive Reaches (step : σ → ε → Option σ) (admitted : σ → ε → Prop) (start : σ) : σ → Prop
  | start : Reaches step admitted start start
  | next {before after : σ} {event : ε} (reached : Reaches step admitted start before)
      (admits : admitted before event) (stepped : step before event = some after) :
      Reaches step admitted start after

namespace Reaches

variable {step : σ → ε → Option σ} {admitted : σ → ε → Prop} {start : σ}

/-- A property of the start that every admitted step keeps holds of every
reached state. -/
theorem invariant (property : σ → Prop) (initial : property start)
    (kept : ∀ before event after, property before → admitted before event →
      step before event = some after → property after)
    {state : σ} (reached : Reaches step admitted start state) : property state := by
  induction reached with
  | start => exact initial
  | next _ admits stepped inductionHypothesis =>
    exact kept _ _ _ inductionHypothesis admits stepped

/-- The invariant rule with a second property that is already known of every
reached state and may be used at each step. -/
theorem invariant_with (known property : σ → Prop)
    (established : ∀ state, Reaches step admitted start state → known state)
    (initial : property start)
    (kept : ∀ before event after, known before → property before → admitted before event →
      step before event = some after → property after)
    {state : σ} (reached : Reaches step admitted start state) : property state := by
  induction reached with
  | start => exact initial
  | next earlier admits stepped inductionHypothesis =>
    exact kept _ _ _ (established _ earlier) inductionHypothesis admits stepped

/-- A guard may be replaced by one that every admitted step from a reached
state meets. -/
theorem admits {other : σ → ε → Prop}
    (met : ∀ before event after, Reaches step admitted start before → admitted before event →
      step before event = some after → other before event)
    {state : σ} (reached : Reaches step admitted start state) : Reaches step other start state := by
  induction reached with
  | start => exact .start
  | next earlier admits stepped inductionHypothesis =>
    exact .next inductionHypothesis (met _ _ _ earlier admits stepped) stepped

/-- A guard is exact for a property when, from a state of an unguarded run that
has the property, the guarded steps are those that keep it. Runs within the
property are then the guarded runs. -/
theorem within_iff (property : σ → Prop) (initial : property start)
    (exact_at : ∀ before event after, Reaches step always start before → property before →
      step before event = some after → (admitted before event ↔ property after)) {state : σ} :
    (Reaches step (fun before _ => property before) start state ∧ property state) ↔
      Reaches step admitted start state := by
  constructor
  · rintro ⟨reached, held⟩
    induction reached with
    | start => exact .start
    | next earlier before stepped inductionHypothesis =>
      have free := earlier.admits fun _ _ _ _ _ _ => trivial
      exact .next (inductionHypothesis before) ((exact_at _ _ _ free before stepped).mpr held) stepped
  · intro reached
    induction reached with
    | start => exact ⟨.start, initial⟩
    | next earlier admits stepped inductionHypothesis =>
      have free := earlier.admits fun _ _ _ _ _ _ => trivial
      have kept := (exact_at _ _ _ free inductionHypothesis.2 stepped).mp admits
      exact ⟨.next inductionHypothesis.1 inductionHypothesis.2 stepped, kept⟩

end Reaches

/-- Take the listed events in order; a refused event, or one the guard does not
admit, leaves no result. -/
def walk (step : σ → ε → Option σ) (admitted : σ → ε → Prop)
    [∀ state event, Decidable (admitted state event)] : σ → List ε → Option σ
  | state, [] => some state
  | state, event :: rest =>
      if admitted state event then
        match step state event with
        | some next => walk step admitted next rest
        | none => none
      else none

/-- A walk goes on after an event that is taken. -/
theorem walk_cons (step : σ → ε → Option σ) (admitted : σ → ε → Prop)
    [∀ state event, Decidable (admitted state event)] {before next : σ} {event : ε} (rest : List ε)
    (admits : admitted before event) (stepped : step before event = some next) :
    walk step admitted before (event :: rest) = walk step admitted next rest := by
  rw [walk, if_pos admits, stepped]

/-- A completed walk ends in a reached state. -/
theorem walk_reaches (step : σ → ε → Option σ) (admitted : σ → ε → Prop)
    [∀ state event, Decidable (admitted state event)] (start before after : σ) (events : List ε)
    (reached : Reaches step admitted start before) (walked : walk step admitted before events = some after) :
    Reaches step admitted start after := by
  induction events generalizing before with
  | nil =>
    have same : before = after := Option.some.inj walked
    exact same ▸ reached
  | cons event rest inductionHypothesis =>
    simp only [walk] at walked
    split at walked
    · rename_i admits
      cases stepped : step before event with
      | none => simp [stepped] at walked
      | some next =>
        rw [stepped] at walked
        exact inductionHypothesis next (.next reached admits stepped) walked
    · simp at walked

/-- The end of a walk known to complete is reached. -/
theorem walk_reaches_end (step : σ → ε → Option σ) (admitted : σ → ε → Prop)
    [∀ state event, Decidable (admitted state event)] (start : σ) (events : List ε)
    (completes : (walk step admitted start events).isSome = true) :
    Reaches step admitted start ((walk step admitted start events).getD start) := by
  obtain ⟨after, walked⟩ := Option.isSome_iff_exists.mp completes
  rw [walked]
  exact walk_reaches step admitted start start after events .start walked

instance : DecidableRel (always : σ → ε → Prop) := fun _ _ => isTrue trivial

end Library

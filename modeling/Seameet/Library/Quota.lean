import Mathlib.Data.List.Basic

/-!
# Quotas in fixed windows

A quota counts the uses since its window began, and admits a use while the count is
within a limit. The first use after the window has passed begins a new one.

A window begins with a use, and the next one a window's length later at the earliest, so
that an interval of that length meets two windows at most and misses the beginning of the
first. Fewer than twice the limit are admitted in it. A refused use has the limit admitted
within a window's length before it.
-/

namespace Library

/-- When a window began, and the uses since then. -/
structure Quota where
  start : Nat
  used : Nat
  deriving DecidableEq, Repr

/-- A use at a time, and whether it was admitted. -/
structure Use where
  time : Nat
  admitted : Bool
  deriving DecidableEq, Repr

namespace Quota

/-- The window that a use falls in. -/
def current (window now : Nat) : Option Quota → Quota
  | none => ⟨now, 0⟩
  | some quota => if window ≤ now - quota.start then ⟨now, 0⟩ else quota

/-- Count one use, and answer whether it is admitted. -/
def take (limit window now : Nat) (quota : Option Quota) : Bool × Quota :=
  let open_ := current window now quota
  (decide (open_.used + 1 ≤ limit), ⟨open_.start, open_.used + 1⟩)

end Quota

/-- A use that was admitted from one time on. -/
def Use.since (first : Nat) (use : Use) : Bool := use.admitted && decide (first ≤ use.time)

/-- A use that was admitted from one time on and before another. -/
def Use.within (first last : Nat) (use : Use) : Bool :=
  use.since first && decide (use.time < last)

section Counting

universe u
variable {α : Type u} {items : List α}

/-- What is counted is counted under one of two properties that cover it. -/
theorem countP_cover {counted left right : α → Bool}
    (covers : ∀ item ∈ items, counted item = true → left item = true ∨ right item = true) :
    items.countP counted ≤ items.countP left + items.countP right := by
  induction items with
  | nil => exact Nat.zero_le _
  | cons item rest inductionHypothesis =>
    have later := inductionHypothesis fun other member =>
      covers other (List.mem_cons_of_mem item member)
    have here := covers item List.mem_cons_self
    simp only [List.countP_cons]
    cases counts : counted item with
    | false =>
      simp only [Bool.false_eq_true, if_false]
      omega
    | true =>
      rcases here counts with held | held <;> simp only [held, if_true] <;> omega

/-- What is counted under one of two properties that exclude each other is counted under
one that both imply. -/
theorem countP_apart {counted left right : α → Bool}
    (apart : ∀ item ∈ items, left item = true → right item = false)
    (implied : ∀ item ∈ items, left item = true ∨ right item = true → counted item = true) :
    items.countP left + items.countP right ≤ items.countP counted := by
  induction items with
  | nil => exact Nat.le_refl _
  | cons item rest inductionHypothesis =>
    have later := inductionHypothesis
      (fun other member => apart other (List.mem_cons_of_mem item member))
      (fun other member => implied other (List.mem_cons_of_mem item member))
    have here := apart item List.mem_cons_self
    have kept := implied item List.mem_cons_self
    simp only [List.countP_cons]
    cases first : left item with
    | true =>
      rw [here first, kept (.inl first)]
      simp only [Bool.false_eq_true, if_true, if_false]
      omega
    | false =>
      cases second : right item with
      | true =>
        rw [kept (.inr second)]
        simp only [Bool.false_eq_true, if_true, if_false]
        omega
      | false =>
        simp only [Bool.false_eq_true, if_false]
        omega

end Counting

/-- What a quota keeps of its uses. -/
structure Metered (limit window : Nat) (quota : Quota) (uses : List Use) : Prop where
  /-- The window began with a use that was admitted. -/
  begun : ∃ use ∈ uses, use.time = quota.start ∧ use.admitted = true
  latest : ∀ use ∈ uses, use.time < quota.start + window
  counted : uses.countP (Use.since quota.start) = min quota.used limit
  /-- Of the uses before the window, those within a window's length of it are few. -/
  before : ∀ first, quota.start < first + window →
    uses.countP (Use.within first quota.start) < limit
  spanned : ∀ first, uses.countP (Use.within first (first + window)) < 2 * limit
  refused : ∀ earlier use later, uses = earlier ++ use :: later → use.admitted = false →
    limit ≤ earlier.countP (Use.within (use.time + 1 - window) (use.time + 1))

namespace Metered

variable {limit window now : Nat} {quota : Quota} {uses : List Use}

/-- The last of the uses is one of the earlier ones, or has all others before it. -/
theorem split_last {last use : Use} {earlier later : List Use}
    (split : uses ++ [last] = earlier ++ use :: later) :
    (earlier = uses ∧ use = last) ∨ ∃ middle, uses = earlier ++ use :: middle := by
  rcases List.eq_nil_or_concat later with rfl | ⟨middle, final, rfl⟩
  · obtain ⟨rfl, same⟩ := List.append_inj' split rfl
    exact .inl ⟨rfl, (List.cons.inj same).1.symm⟩
  · right
    refine ⟨middle, ?_⟩
    have shifted : uses ++ [last] = (earlier ++ use :: middle) ++ [final] := by
      simpa using split
    exact (List.append_inj' shifted rfl).1

/-- One more use is counted where it falls. -/
theorem countP_last (counted : Use → Bool) (last : Use) :
    (uses ++ [last]).countP counted = uses.countP counted + if counted last then 1 else 0 := by
  rw [List.countP_append, List.countP_singleton]

/-- No use is later than the present one. -/
theorem countP_none {counted : Use → Bool} (none : ∀ use ∈ uses, counted use = false) :
    uses.countP counted = 0 := by
  rw [List.countP_eq_zero]
  intro use member
  rw [none use member]
  exact Bool.false_ne_true

/-- A use begins a window when none is open, or when all others are before it and few
within a window's length. -/
theorem begins (some : 0 < limit) (positive : 0 < window)
    (past : ∀ use ∈ uses, use.time < now)
    (few : ∀ first, now < first + window → uses.countP (Use.within first now) < limit)
    (spanned : ∀ first, uses.countP (Use.within first (first + window)) < 2 * limit)
    (refused : ∀ earlier use later, uses = earlier ++ use :: later → use.admitted = false →
      limit ≤ earlier.countP (Use.within (use.time + 1 - window) (use.time + 1))) :
    Metered limit window ⟨now, 1⟩ (uses ++ [⟨now, decide (1 ≤ limit)⟩]) where
  begun := ⟨_, List.mem_append_right uses (List.mem_singleton_self _), rfl, decide_eq_true some⟩
  latest := by
    intro use member
    show use.time < now + window
    rcases List.mem_append.mp member with old | new
    · have before := past use old
      omega
    · obtain rfl := List.mem_singleton.mp new
      show now < now + window
      omega
  counted := by
    have none : uses.countP (Use.since now) = 0 := by
      refine countP_none fun use member => ?_
      have before := past use member
      rw [Use.since, decide_eq_false (by omega), Bool.and_false]
    rw [countP_last, none, Use.since, decide_eq_true (Nat.le_refl now), Bool.and_true]
    simp only [decide_eq_true_eq]
    split <;> omega
  before := by
    intro first near
    have apart : Use.within first now ⟨now, decide (1 ≤ limit)⟩ = false := by
      rw [Use.within, decide_eq_false (Nat.lt_irrefl now), Bool.and_false]
    rw [countP_last, apart]
    exact few first near
  spanned := by
    intro first
    rw [countP_last]
    by_cases inside : Use.within first (first + window) ⟨now, decide (1 ≤ limit)⟩ = true
    · rw [if_pos inside]
      simp only [Use.within, Use.since, Bool.and_eq_true, decide_eq_true_eq] at inside
      have old : uses.countP (Use.within first (first + window)) ≤ uses.countP (Use.within first now) := by
        refine List.countP_mono_left fun use member counted => ?_
        simp only [Use.within, Use.since, Bool.and_eq_true, decide_eq_true_eq] at counted ⊢
        exact ⟨counted.1, past use member⟩
      have recent := few first inside.2
      omega
    · rw [if_neg inside]
      exact spanned first
  refused := by
    intro earlier use later split rejected
    rcases split_last split with ⟨rfl, rfl⟩ | ⟨middle, whole⟩
    · have none : limit = 0 := by
        simp only [decide_eq_false_iff_not] at rejected
        omega
      rw [none]
      exact Nat.zero_le _
    · exact refused earlier use middle whole rejected

/-- A use in an open window is counted there. -/
theorem continues (metered : Metered limit window quota uses) (ordered : ∀ use ∈ uses, use.time ≤ now)
    (inside : now < quota.start + window) :
    Metered limit window ⟨quota.start, quota.used + 1⟩
      (uses ++ [⟨now, decide (quota.used + 1 ≤ limit)⟩]) where
  begun := by
    obtain ⟨use, member, same, admitted⟩ := metered.begun
    exact ⟨use, List.mem_append_left _ member, same, admitted⟩
  latest := by
    intro use member
    rcases List.mem_append.mp member with old | new
    · exact metered.latest use old
    · obtain rfl := List.mem_singleton.mp new
      exact inside
  counted := by
    obtain ⟨use, member, same, _⟩ := metered.begun
    have since : quota.start ≤ now := same ▸ ordered use member
    rw [countP_last, metered.counted, Use.since, decide_eq_true since, Bool.and_true]
    simp only [decide_eq_true_eq]
    split <;> omega
  before := by
    intro first near
    obtain ⟨use, member, same, _⟩ := metered.begun
    have since : quota.start ≤ now := same ▸ ordered use member
    have apart : Use.within first quota.start ⟨now, decide (quota.used + 1 ≤ limit)⟩ = false := by
      rw [Use.within, decide_eq_false (Nat.not_lt_of_le since), Bool.and_false]
    rw [countP_last, apart]
    exact metered.before first near
  spanned := by
    intro first
    rw [countP_last]
    by_cases counts : Use.within first (first + window) ⟨now, decide (quota.used + 1 ≤ limit)⟩ = true
    · rw [if_pos counts]
      simp only [Use.within, Use.since, Bool.and_eq_true, decide_eq_true_eq] at counts
      obtain ⟨use, member, same, _⟩ := metered.begun
      have since : quota.start ≤ now := same ▸ ordered use member
      -- what is counted was admitted in this window or just before it
      have cover : uses.countP (Use.within first (first + window)) ≤
          uses.countP (Use.within first quota.start) + uses.countP (Use.since quota.start) := by
        refine countP_cover fun use _ counted => ?_
        simp only [Use.within, Use.since, Bool.and_eq_true, decide_eq_true_eq] at counted ⊢
        by_cases early : use.time < quota.start
        · exact .inl ⟨counted.1, early⟩
        · exact .inr ⟨counted.1.1, by omega⟩
      have previous := metered.before first (by omega)
      rw [metered.counted] at cover
      omega
    · rw [if_neg counts]
      exact metered.spanned first
  refused := by
    intro earlier use later split rejected
    rcases split_last split with ⟨rfl, rfl⟩ | ⟨middle, whole⟩
    · simp only [decide_eq_false_iff_not] at rejected
      have full : earlier.countP (Use.since quota.start) = limit := by
        rw [metered.counted]
        omega
      rw [← full]
      refine List.countP_mono_left fun use member counted => ?_
      have before := ordered use member
      simp only [Use.within, Use.since, Bool.and_eq_true, decide_eq_true_eq] at counted ⊢
      exact ⟨⟨counted.1, by omega⟩, by omega⟩
    · exact metered.refused earlier use middle whole rejected

/-- The first use. -/
theorem starts (some : 0 < limit) (positive : 0 < window) :
    Metered limit window (Quota.take limit window now none).2
      [⟨now, (Quota.take limit window now none).1⟩] :=
  @begins limit window now [] some positive nofun (fun _ _ => some) (fun _ => by rw [List.countP_nil]; omega)
    fun earlier _ _ split => by
      have short := congrArg List.length split
      simp at short

/-- A further use, not earlier than any other. -/
theorem take (metered : Metered limit window quota uses) (some : 0 < limit) (positive : 0 < window)
    (ordered : ∀ use ∈ uses, use.time ≤ now) :
    Metered limit window (Quota.take limit window now (.some quota)).2
      (uses ++ [⟨now, (Quota.take limit window now (.some quota)).1⟩]) := by
  obtain ⟨opening, member, same, admitted⟩ := metered.begun
  have since : quota.start ≤ now := same ▸ ordered opening member
  unfold Quota.take Quota.current
  dsimp only
  split
  · next passed =>
    show Metered limit window ⟨now, 1⟩ (uses ++ [⟨now, decide (1 ≤ limit)⟩])
    refine begins some positive ?_ ?_ metered.spanned metered.refused
    · intro use member
      have before := metered.latest use member
      omega
    · intro first near
      -- the use that began the window is before what is counted now
      have opened : 0 < uses.countP fun use => use.admitted && decide (use.time = quota.start) :=
        List.countP_pos_iff.mpr ⟨opening, member, by rw [admitted, same, decide_eq_true rfl]; rfl⟩
      have recent : uses.countP (Use.within first now) +
          uses.countP (fun use => use.admitted && decide (use.time = quota.start)) ≤
            uses.countP (Use.since quota.start) := by
        refine countP_apart ?_ ?_
        · intro use _ counted
          simp only [Use.within, Use.since, Bool.and_eq_true, decide_eq_true_eq] at counted
          rw [decide_eq_false (by omega), Bool.and_false]
        · rintro use _ (counted | counted)
          · simp only [Use.within, Use.since, Bool.and_eq_true, decide_eq_true_eq] at counted ⊢
            exact ⟨counted.1.1, by omega⟩
          · simp only [Use.since, Bool.and_eq_true, decide_eq_true_eq] at counted ⊢
            exact ⟨counted.1, by omega⟩
      rw [metered.counted] at recent
      omega
  · next inside => exact metered.continues ordered (by omega)

end Metered

end Library

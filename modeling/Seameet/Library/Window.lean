import Mathlib.Data.Nat.Bitwise

/-!
# Sliding windows over numbers

A window remembers the highest number it has accepted and, in a bitmap, which of
the numbers just below it have been accepted too: bit `i` stands for the number
`i` below the highest. A number above the window moves it, a number behind it is
refused, and a number inside it is accepted once.

The bitmap is not cut off at the window's size, so bits above the size may be
left over from earlier. They are never read: every law here speaks of the numbers
that the window covers.
-/

namespace Library

/-- The highest accepted number and the accepted ones below it. -/
structure Window where
  highest : Nat
  bitmap : Nat
  deriving DecidableEq, Repr

namespace Window

/-- Test a number and record it. A refused number leaves the window as it is. -/
def check (size : Nat) (window : Option Window) (number : Nat) : Option Window :=
  match window with
  | none => some { highest := number, bitmap := 1 }
  | some window =>
    if window.highest < number then
      let shift := number - window.highest
      if shift < size then
        some { highest := number, bitmap := window.bitmap <<< shift ||| 1 }
      else
        some { highest := number, bitmap := 1 }
    else
      let diff := window.highest - number
      if size ≤ diff then none
      else if window.bitmap &&& 1 <<< diff ≠ 0 then none
      else some { window with bitmap := window.bitmap ||| 1 <<< diff }

/-- The number is not behind the window. -/
def Covers (size : Nat) (window : Window) (number : Nat) : Prop :=
  window.highest < number + size

/-- The window has the number recorded. -/
def Marks (window : Window) (number : Nat) : Prop :=
  number ≤ window.highest ∧ window.bitmap.testBit (window.highest - number) = true

instance (window : Window) (number : Nat) : Decidable (window.Marks number) :=
  inferInstanceAs (Decidable (_ ∧ _))

/-- The window after a test: moved on when the number was accepted. -/
def settle (size : Nat) (window : Option Window) (number : Nat) : Option Window :=
  (check size window number).or window

variable {size : Nat} {window after : Window} {number tested : Nat}

/-- A fresh window records the number it starts with. -/
theorem marks_fresh : Marks { highest := number, bitmap := 1 } tested ↔ tested = number := by
  show tested ≤ number ∧ Nat.testBit 1 (number - tested) = true ↔ tested = number
  rw [Nat.testBit_one_eq_true_iff_self_eq_zero]
  omega

/-- A lone bit is set in a bitmap exactly when the two have it in common. -/
theorem bit_clear (bitmap index : Nat) :
    bitmap &&& 1 <<< index = 0 ↔ bitmap.testBit index = false := by
  rw [Nat.one_shiftLeft, Nat.and_two_pow]
  cases bitmap.testBit index with
  | false => simp
  | true => simp

/-- A number is accepted when it is above the window, or inside and not recorded. -/
theorem check_isSome (size : Nat) (window : Window) (number : Nat) :
    (check size (some window) number).isSome = true ↔
      window.highest < number ∨ window.Covers size number ∧ ¬ window.Marks number := by
  simp only [check]
  split
  · next above =>
    constructor
    · exact fun _ => .inl above
    · intro _
      split <;> rfl
  · next inside =>
    unfold Covers Marks
    split
    · next behind =>
      constructor
      · intro impossible
        cases impossible
      · intro either
        omega
    · next covered =>
      split
      · next recorded =>
        have set : window.bitmap.testBit (window.highest - number) = true := by
          rw [← Bool.not_eq_false, ← bit_clear]
          exact recorded
        constructor
        · intro impossible
          cases impossible
        · rintro (above | ⟨_, free⟩)
          · exact absurd above inside
          · exact absurd ⟨by omega, set⟩ free
      · next free =>
        have unset := (bit_clear window.bitmap (window.highest - number)).mp (not_not.mp free)
        constructor
        · intro _
          refine .inr ⟨by omega, ?_⟩
          rintro ⟨_, set⟩
          rw [unset] at set
          cases set
        · intro _
          rfl

/-- An accepted number is recorded, nothing else is, and the window's end is the
highest number so far. -/
theorem check_marks (accepted : check size (some window) number = some after) :
    after.highest = max window.highest number ∧
      ∀ tested, after.Covers size tested →
        (after.Marks tested ↔ tested = number ∨ window.Marks tested) := by
  simp only [check] at accepted
  split at accepted
  · next above =>
    split at accepted
    · next near =>
      obtain rfl := Option.some.inj accepted
      refine ⟨(Nat.max_eq_right (Nat.le_of_lt above)).symm, ?_⟩
      intro tested _
      show tested ≤ number ∧ (window.bitmap <<< (number - window.highest) ||| 1).testBit
        (number - tested) = true ↔ _
      rw [Nat.testBit_or, Nat.testBit_shiftLeft, Bool.or_eq_true, Bool.and_eq_true,
        decide_eq_true_eq, Nat.testBit_one_eq_true_iff_self_eq_zero]
      unfold Marks
      constructor
      · rintro ⟨below, ⟨old, set⟩ | here⟩
        · have place : number - tested - (number - window.highest) = window.highest - tested := by
            omega
          rw [place] at set
          exact .inr ⟨by omega, set⟩
        · exact .inl (by omega)
      · rintro (rfl | ⟨old, set⟩)
        · exact ⟨Nat.le_refl tested, .inr (Nat.sub_self tested)⟩
        · have place : number - tested - (number - window.highest) = window.highest - tested := by
            omega
          refine ⟨by omega, .inl ⟨by omega, ?_⟩⟩
          rw [place]
          exact set
    · next far =>
      obtain rfl := Option.some.inj accepted
      refine ⟨(Nat.max_eq_right (Nat.le_of_lt above)).symm, ?_⟩
      intro tested covered
      rw [marks_fresh]
      constructor
      · exact .inl
      · rintro (same | ⟨old, _⟩)
        · exact same
        · unfold Covers at covered
          dsimp only at covered
          omega
  · next inside =>
    split at accepted
    · cases accepted
    · split at accepted
      · cases accepted
      · obtain rfl := Option.some.inj accepted
        refine ⟨(Nat.max_eq_left (Nat.le_of_not_lt inside)).symm, ?_⟩
        intro tested _
        show tested ≤ window.highest ∧ (window.bitmap ||| 1 <<< (window.highest - number)).testBit
          (window.highest - tested) = true ↔ _
        rw [Nat.testBit_or, Nat.one_shiftLeft, Nat.testBit_two_pow, Bool.or_eq_true,
          decide_eq_true_eq]
        unfold Marks
        constructor
        · rintro ⟨below, set | here⟩
          · exact .inr ⟨below, set⟩
          · exact .inl (by omega)
        · rintro (rfl | ⟨below, set⟩)
          · exact ⟨by omega, .inr rfl⟩
          · exact ⟨below, .inl set⟩

/-- A test leaves a window whose end is at least the old one. -/
theorem settle_highest (size : Nat) (window : Window) (number : Nat) :
    ∃ later, settle size (some window) number = some later ∧ window.highest ≤ later.highest := by
  unfold settle
  cases tried : check size (some window) number with
  | none => exact ⟨window, rfl, Nat.le_refl window.highest⟩
  | some later =>
    refine ⟨later, rfl, ?_⟩
    rw [(check_marks tried).1]
    exact Nat.le_max_left window.highest number

/-- A number behind the window changes nothing. -/
theorem settle_behind (behind : number + size ≤ window.highest) :
    check size (some window) number = none ∧ settle size (some window) number = some window := by
  have refused : check size (some window) number = none := by
    cases tried : check size (some window) number with
    | none => rfl
    | some after =>
      have accepts := (check_isSome size window number).mp (by rw [tried]; rfl)
      unfold Covers at accepts
      omega
  refine ⟨refused, ?_⟩
  rw [settle, refused]
  rfl

/-- A number that is not behind is recorded after the test, whether the test
accepted it or found it recorded already. -/
theorem settle_within (near : window.highest < number + size) :
    ∃ later, settle size (some window) number = some later ∧
      later.highest = max window.highest number ∧
      ∀ tested, later.Covers size tested →
        (later.Marks tested ↔ tested = number ∨ window.Marks tested) := by
  unfold settle
  cases tried : check size (some window) number with
  | some later => exact ⟨later, rfl, check_marks tried⟩
  | none =>
    have refuses := check_isSome size window number
    rw [tried] at refuses
    have inside : number ≤ window.highest := by
      by_contra above
      exact absurd (refuses.mpr (.inl (Nat.lt_of_not_le above))) (by decide)
    have recorded : window.Marks number := by
      by_contra unmarked
      exact absurd (refuses.mpr (.inr ⟨near, unmarked⟩)) (by decide)
    refine ⟨window, rfl, (Nat.max_eq_left inside).symm, ?_⟩
    intro tested _
    constructor
    · exact .inr
    · rintro (rfl | marked)
      · exact recorded
      · exact marked

/-- An accepted number is within the window afterwards. -/
theorem check_reaches (window : Option Window) (accepted : check size window number = some after) :
    number ≤ after.highest := by
  cases window with
  | none =>
    obtain rfl := Option.some.inj accepted
    exact Nat.le_refl number
  | some window =>
    rw [(check_marks accepted).1]
    exact Nat.le_max_right window.highest number

/-- A number is accepted once. -/
theorem check_again (window : Option Window) (accepted : check size window number = some after) :
    check size (some after) number = none := by
  have reached := check_reaches window accepted
  have recorded : after.Covers size number → after.Marks number := by
    intro covered
    cases window with
    | none =>
      obtain rfl := Option.some.inj accepted
      exact marks_fresh.mpr rfl
    | some window => exact ((check_marks accepted).2 number covered).mpr (.inl rfl)
  rw [← Option.not_isSome_iff_eq_none, check_isSome]
  rintro (above | ⟨covered, unmarked⟩)
  · omega
  · exact unmarked (recorded covered)

/-- Accepting a number decides nothing about the numbers above it. -/
theorem check_later (window : Option Window) (accepted : check size window number = some after)
    (later : number < tested) :
    (check size (some after) tested).isSome = (check size window tested).isSome := by
  rw [Bool.eq_iff_iff, check_isSome]
  cases window with
  | none =>
    obtain rfl := Option.some.inj accepted
    exact iff_of_true (.inl later) rfl
  | some window =>
    obtain ⟨reach, marks⟩ := check_marks accepted
    have alike : after.Covers size tested → tested ≤ window.highest →
        (after.Marks tested ↔ window.Marks tested) := by
      intro covered _
      rw [marks tested covered]
      constructor
      · rintro (same | marked)
        · omega
        · exact marked
      · exact .inr
    rw [check_isSome]
    by_cases above : window.highest < tested
    · exact iff_of_true (.inl (by omega)) (.inl above)
    · have same : after.highest = window.highest := by omega
      have covers : after.Covers size tested ↔ window.Covers size tested := by
        unfold Covers
        rw [same]
      rw [same, covers]
      constructor
      · rintro (impossible | ⟨covered, unmarked⟩)
        · exact absurd impossible above
        · exact .inr ⟨covered, fun marked =>
            unmarked ((alike (covers.mpr covered) (by omega)).mpr marked)⟩
      · rintro (impossible | ⟨covered, unmarked⟩)
        · exact absurd impossible above
        · exact .inr ⟨covered, fun marked =>
            unmarked ((alike (covers.mpr covered) (by omega)).mp marked)⟩

/-- With a number accepted, all from there up to a last one are, exactly when those above
it still are. -/
theorem check_run_iff (window : Option Window) (accepted : check size window number = some after)
    (last : Nat) :
    (∀ tested, number ≤ tested → tested ≤ last → (check size window tested).isSome = true) ↔
      ∀ tested, number < tested → tested ≤ last → (check size (some after) tested).isSome = true := by
  constructor
  · intro all tested above below
    rw [check_later window accepted above]
    exact all tested (Nat.le_of_lt above) below
  · intro later tested above below
    rcases Nat.eq_or_lt_of_le above with same | more
    · rw [← same, accepted]
      rfl
    · rw [← check_later window accepted more]
      exact later tested more below

/-- A window that has recorded its end still has it recorded after a test. -/
theorem check_marks_highest (window : Option Window) (positive : 0 < size)
    (accepted : check size window number = some after)
    (recorded : ∀ earlier, window = some earlier → earlier.Marks earlier.highest) :
    after.Marks after.highest := by
  cases window with
  | none =>
    obtain rfl := Option.some.inj accepted
    exact marks_fresh.mpr rfl
  | some window =>
    obtain ⟨reach, marks⟩ := check_marks accepted
    have covered : after.Covers size after.highest := Nat.lt_add_of_pos_right positive
    rw [marks _ covered, reach]
    rcases Nat.le_total window.highest number with below | above
    · exact .inl (Nat.max_eq_right below)
    · rw [Nat.max_eq_left above]
      exact .inr (recorded window rfl)

section Reference

/-- The reference a window is compared with. All the accepted numbers are kept, and a
number is judged by the highest of them and by whether it is one of them. -/
def admits (size : Nat) (accepted : List Nat) (number : Nat) : Bool :=
  match accepted.max? with
  | none => true
  | some highest => highest < number || highest - number < size && number ∉ accepted

/-- What the reference keeps after a number. -/
def collect (size : Nat) (accepted : List Nat) (number : Nat) : List Nat :=
  if admits size accepted number then number :: accepted else accepted

/-- The window has recorded the accepted numbers that it covers. -/
def Records (size : Nat) (window : Option Window) (accepted : List Nat) : Prop :=
  match window with
  | none => accepted = []
  | some window => accepted.max? = some window.highest ∧
      ∀ tested, window.Covers size tested → (window.Marks tested ↔ tested ∈ accepted)

variable {accepted : List Nat}

/-- A window and the reference judge alike. -/
theorem Records.judge {window : Option Window} (records : Records size window accepted)
    (number : Nat) : (check size window number).isSome = admits size accepted number := by
  cases window with
  | none =>
    obtain rfl : accepted = [] := records
    rfl
  | some window =>
    obtain ⟨highest, marks⟩ := records
    rw [Bool.eq_iff_iff, check_isSome]
    simp only [admits, highest, Bool.or_eq_true, Bool.and_eq_true, decide_eq_true_eq]
    unfold Covers
    by_cases above : window.highest < number
    · exact iff_of_true (.inl above) (.inl above)
    · constructor
      · rintro (impossible | ⟨covered, unmarked⟩)
        · exact absurd impossible above
        · exact .inr ⟨by omega, fun member => unmarked ((marks number covered).mpr member)⟩
      · rintro (impossible | ⟨near, absent⟩)
        · exact absurd impossible above
        · have covered : window.highest < number + size := by omega
          exact .inr ⟨covered, fun marked => absent ((marks number covered).mp marked)⟩

/-- After a number they still agree. -/
theorem Records.settle {window : Option Window} (records : Records size window accepted)
    (number : Nat) : Records size (settle size window number) (collect size accepted number) := by
  have judged := records.judge number
  unfold Window.settle collect
  cases tried : check size window number with
  | none =>
    rw [tried] at judged
    rw [← judged]
    exact records
  | some after =>
    rw [tried] at judged
    rw [← judged]
    show (number :: accepted).max? = some after.highest ∧
      ∀ tested, after.Covers size tested → (after.Marks tested ↔ tested ∈ number :: accepted)
    cases window with
    | none =>
      obtain rfl : accepted = [] := records
      obtain rfl := Option.some.inj tried
      refine ⟨rfl, fun tested _ => ?_⟩
      rw [marks_fresh, List.mem_singleton]
    | some window =>
      obtain ⟨highest, marks⟩ := records
      obtain ⟨reach, marked⟩ := check_marks tried
      refine ⟨?_, fun tested covered => ?_⟩
      · rw [List.max?_cons, highest, reach, Option.elim_some, Nat.max_comm]
      · rw [marked tested covered, List.mem_cons]
        by_cases within : window.highest < tested + size
        · rw [marks tested within]
        · unfold Covers at covered
          omega

/-- What the reference keeps has no number twice. -/
theorem collect_nodup (distinct : accepted.Nodup) : (collect size accepted number).Nodup := by
  unfold collect
  split
  · rename_i admitted
    refine List.nodup_cons.mpr ⟨fun member => ?_, distinct⟩
    obtain ⟨highest, top⟩ := Option.isSome_iff_exists.mp
      (List.isSome_max?_of_mem member)
    have below := (List.max?_eq_some_iff.mp top).2 number member
    simp only [admits, top, Bool.or_eq_true, Bool.and_eq_true, decide_eq_true_eq] at admitted
    rcases admitted with above | ⟨_, absent⟩
    · omega
    · exact absent member
  · exact distinct

end Reference

section Growth

/-- The lowest and the highest number taken since a window was last started afresh. -/
structure Span where
  lowest : Nat
  highest : Nat
  deriving DecidableEq, Repr

/-- The span after a number. A number that is too far above starts it afresh, and one
that is too far below is left out. -/
def Span.extend (size : Nat) (span : Option Span) (number : Nat) : Span :=
  match span with
  | none => { lowest := number, highest := number }
  | some span =>
    if span.highest < number then
      if number - span.highest < size then { span with highest := number }
      else { lowest := number, highest := number }
    else if span.highest - number < size then { span with lowest := min span.lowest number }
    else span

/-- The bitmap of a window is as long as the span it has recorded. -/
structure Spans (window : Window) (span : Span) : Prop where
  ends : window.highest = span.highest
  order : span.lowest ≤ span.highest
  reaches : 2 ^ (span.highest - span.lowest) ≤ window.bitmap
  within : window.bitmap < 2 ^ (span.highest - span.lowest + 1)

variable {span : Span}

/-- A bitmap is below a power of two exactly where the span is shorter than the exponent. -/
theorem Spans.bounded_iff (spans : window.Spans span) (bound : Nat) :
    window.bitmap < 2 ^ bound ↔ span.highest < span.lowest + bound := by
  have order := spans.order
  constructor
  · intro small
    have shorter : span.highest - span.lowest < bound :=
      (Nat.pow_lt_pow_iff_right (by decide)).mp (Nat.lt_of_le_of_lt spans.reaches small)
    omega
  · intro near
    have longer : span.highest - span.lowest + 1 ≤ bound := by omega
    exact Nat.lt_of_lt_of_le spans.within (Nat.pow_le_pow_right (by decide) longer)

/-- A window of one number spans that number alone. -/
theorem spans_fresh (number : Nat) :
    Spans { highest := number, bitmap := 1 } { lowest := number, highest := number } where
  ends := rfl
  order := Nat.le_refl number
  reaches := by simp
  within := by simp

/-- A bitmap that is moved up grows by as many bits. -/
theorem Spans.advance (spans : window.Spans span) (above : window.highest < number) :
    Spans { highest := number, bitmap := window.bitmap <<< (number - window.highest) ||| 1 }
      { span with highest := number } where
  ends := rfl
  order := by
    have ends := spans.ends
    have order := spans.order
    dsimp only
    omega
  reaches := by
    have ends := spans.ends
    have order := spans.order
    have place : number - span.lowest =
        span.highest - span.lowest + (number - window.highest) := by omega
    refine Nat.le_trans ?_ Nat.left_le_or
    show 2 ^ (number - span.lowest) ≤ _
    rw [place, Nat.pow_add, Nat.shiftLeft_eq]
    exact Nat.mul_le_mul_right _ spans.reaches
  within := by
    have ends := spans.ends
    have order := spans.order
    have place : number - span.lowest + 1 =
        span.highest - span.lowest + 1 + (number - window.highest) := by omega
    refine Nat.or_lt_two_pow ?_ (Nat.one_lt_two_pow (Nat.succ_ne_zero _))
    show window.bitmap <<< (number - window.highest) < 2 ^ (number - span.lowest + 1)
    rw [place, Nat.pow_add 2 _ (number - window.highest), Nat.shiftLeft_eq]
    exact Nat.mul_lt_mul_of_pos_right spans.within (Nat.two_pow_pos _)

/-- A number that is not above the end is recorded below it. -/
theorem Spans.mark (spans : window.Spans span) (inside : number ≤ window.highest) :
    Spans { window with bitmap := window.bitmap ||| 1 <<< (window.highest - number) }
      { span with lowest := min span.lowest number } where
  ends := spans.ends
  order := Nat.le_trans (Nat.min_le_left span.lowest number) spans.order
  reaches := by
    have ends := spans.ends
    show 2 ^ (span.highest - min span.lowest number) ≤ _
    rcases Nat.le_total span.lowest number with low | high
    · rw [Nat.min_eq_left low]
      exact Nat.le_trans spans.reaches Nat.left_le_or
    · rw [Nat.min_eq_right high, Nat.one_shiftLeft, ends]
      exact Nat.right_le_or
  within := by
    have ends := spans.ends
    refine Nat.or_lt_two_pow ?_ ?_
    · refine Nat.lt_of_lt_of_le spans.within (Nat.pow_le_pow_right (by decide) ?_)
      dsimp only
      omega
    · rw [Nat.one_shiftLeft]
      refine Nat.pow_lt_pow_right (by decide) ?_
      dsimp only
      omega

/-- The span that a window has recorded, if it has started. -/
def Spanned (window : Option Window) (span : Option Span) : Prop :=
  match window, span with
  | none, none => True
  | some window, some span => window.Spans span
  | _, _ => False

/-- A test keeps the span, whether it accepts the number or not. -/
theorem Spanned.settle {window : Option Window} {span : Option Span} (spanned : Spanned window span)
    (number : Nat) :
    Spanned (settle size window number) (some (Span.extend size span number)) := by
  cases window with
  | none =>
    cases span with
    | none => exact spans_fresh number
    | some span => exact spanned.elim
  | some window =>
    cases span with
    | none => exact spanned.elim
    | some span =>
      have spans : window.Spans span := spanned
      have ends := spans.ends
      simp only [Window.settle, check, Span.extend, ends]
      split
      · next above =>
        split
        · have higher : window.highest < number := by omega
          rw [← ends]
          exact spans.advance higher
        · exact spans_fresh number
      · next inside =>
        by_cases near : span.highest - number < size
        · rw [if_neg (Nat.not_le_of_lt near), if_pos near]
          split
          · next recorded =>
            -- The number's own bit bounds the span from below.
            have set : window.bitmap.testBit (span.highest - number) = true := by
              rw [← Bool.not_eq_false, ← bit_clear]
              exact recorded
            have large := Nat.lt_of_le_of_lt (Nat.ge_two_pow_of_testBit set) spans.within
            have shorter := (Nat.pow_lt_pow_iff_right (by decide)).mp large
            have order := spans.order
            have low : min span.lowest number = span.lowest := by omega
            rw [low]
            exact spans
          · have lower : number ≤ window.highest := by omega
            have marked := spans.mark lower
            rw [ends] at marked
            exact marked
        · rw [if_pos (Nat.le_of_not_lt near), if_neg near]
          exact spans

end Growth

end Window

end Library

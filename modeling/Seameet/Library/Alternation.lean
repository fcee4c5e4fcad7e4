import Mathlib.Data.List.Basic

/-!
# Alternating records

Two kinds of entry, such as an opening and a closing, are recorded as truth
values. A record alternates when it starts with an opening and no entry is
followed by one of its own kind. It is then told by its last entry which kind
may come next, and the openings outnumber the closings by one at most.
-/

namespace Library

/-- Each value is the expected one, and the next is expected to be the other. -/
def AlternatesFrom : Bool → List Bool → Prop
  | _, [] => True
  | expected, value :: rest => value = expected ∧ AlternatesFrom (!expected) rest

/-- Openings and closings alternate strictly, starting with an opening. -/
abbrev Alternates (record : List Bool) : Prop := AlternatesFrom true record

instance AlternatesFrom.decidable : ∀ expected record, Decidable (AlternatesFrom expected record)
  | _, [] => isTrue trivial
  | expected, value :: rest =>
      have := AlternatesFrom.decidable (!expected) rest
      inferInstanceAs (Decidable (value = expected ∧ AlternatesFrom (!expected) rest))

/-- Whether the last entry of a record is an opening. -/
def standsOpen (record : List Bool) : Bool := record.getLast?.getD false

/-- Nothing stands open before the first value. -/
@[simp] theorem standsOpen_nil : standsOpen [] = false := rfl

/-- What stands open is what the last value opens. -/
@[simp] theorem standsOpen_append_one (record : List Bool) (value : Bool) :
    standsOpen (record ++ [value]) = value := by simp [standsOpen]

/-- An entry keeps the alternation exactly when it differs from the one before. -/
theorem alternatesFrom_append_one (expected value : Bool) (record : List Bool) :
    AlternatesFrom expected (record ++ [value]) ↔
      AlternatesFrom expected record ∧ value = !(record.getLast?.getD !expected) := by
  induction record generalizing expected with
  | nil => simp [AlternatesFrom]
  | cons first rest inductionHypothesis =>
    simp only [List.cons_append, AlternatesFrom, inductionHypothesis, List.getLast?_cons,
      Option.getD_some, Bool.not_not, and_assoc]
    constructor
    · rintro ⟨rfl, later, last⟩
      exact ⟨rfl, later, last⟩
    · rintro ⟨rfl, later, last⟩
      exact ⟨rfl, later, last⟩

/-- A record goes on alternating with an opening when it does not stand open,
and with a closing when it does. -/
theorem alternates_append_one (record : List Bool) (value : Bool) :
    Alternates (record ++ [value]) ↔ Alternates record ∧ value = !standsOpen record :=
  alternatesFrom_append_one true value record

/-- The openings of an alternating record, counted from the expected value. -/
theorem alternatesFrom_count (expected : Bool) (record : List Bool)
    (alternates : AlternatesFrom expected record) :
    record.count true + (!expected).toNat =
      record.count false + (record.getLast?.getD !expected).toNat := by
  induction record generalizing expected with
  | nil => simp
  | cons first rest inductionHypothesis =>
    obtain ⟨rfl, later⟩ := alternates
    have counted := inductionHypothesis (!first) later
    cases first with
    | false =>
      simp only [Bool.not_false, Bool.not_true, Bool.toNat_false] at counted
      simp [List.getLast?_cons]
      omega
    | true =>
      simp only [Bool.not_true, Bool.not_false, Bool.toNat_true] at counted
      simp [List.getLast?_cons]
      omega

/-- An alternating record holds as many openings as closings, and one more
while it stands open. -/
theorem alternates_count (record : List Bool) (alternates : Alternates record) :
    record.count true = record.count false + (standsOpen record).toNat := by
  simpa [standsOpen] using alternatesFrom_count true record alternates

end Library

import Mathlib.Data.List.Basic

/-!
# Counting records

A system keeps one record for each call made on it, and a step changes one of
them. These laws say how the number of records that pass a test moves with such
a step, and when two tests select the same records.
-/

namespace Library

universe u
variable {α : Type u}

/-- Changing one record moves the count by what the change does to its test. -/
theorem countP_modify (test : α → Bool) (change : α → α) {records : List α} {index : Nat} {record : α}
    (found : records[index]? = some record) :
    (records.modify index change).countP test + (test record).toNat =
      records.countP test + (test (change record)).toNat := by
  induction records generalizing index with
  | nil => simp at found
  | cons first rest inductionHypothesis =>
    cases index with
    | zero =>
      cases Option.some.inj found
      simp only [List.modify_zero_cons, List.countP_cons]
      cases test record <;> cases test (change record) <;> simp
    | succ index =>
      have counted := inductionHypothesis (by simpa using found)
      simp only [List.modify_succ_cons, List.countP_cons]
      omega

/-- Changing one record leaves the count of a test that does not see the change. -/
theorem countP_modify_same (test : α → Bool) (change : α → α) (records : List α) (index : Nat)
    (unseen : ∀ record ∈ records, test (change record) = test record) :
    (records.modify index change).countP test = records.countP test := by
  cases found : records[index]? with
  | none => rw [List.modify_eq_self (by simpa using found)]
  | some record =>
    have counted := countP_modify test change found
    rw [unseen record (List.mem_of_getElem? found)] at counted
    omega

/-- A test that implies another and selects as many records selects the same ones. -/
theorem agree_of_countP_eq (narrow wide : α → Bool) (records : List α)
    (implies : ∀ record ∈ records, narrow record = true → wide record = true)
    (equal : records.countP wide = records.countP narrow) :
    ∀ record ∈ records, wide record = true → narrow record = true := by
  induction records with
  | nil => simp
  | cons first rest inductionHypothesis =>
    have restImplies : ∀ record ∈ rest, narrow record = true → wide record = true :=
      fun record member => implies record (List.mem_cons_of_mem first member)
    have fewer : rest.countP narrow ≤ rest.countP wide := List.countP_mono_left restImplies
    have firstImplies := implies first List.mem_cons_self
    simp only [List.countP_cons] at equal
    intro record member selected
    cases List.mem_cons.mp member with
    | inl same =>
      subst same
      by_contra missed
      simp only [selected, if_true, missed] at equal
      simp at equal
      omega
    | inr later =>
      refine inductionHypothesis restImplies ?_ record later selected
      by_cases narrowFirst : narrow first = true
      · simp only [narrowFirst, firstImplies narrowFirst, if_true] at equal
        omega
      · by_cases wideFirst : wide first = true
        · simp only [narrowFirst, wideFirst, if_true] at equal
          simp at equal
          omega
        · simp only [narrowFirst, wideFirst] at equal
          simpa using equal

end Library

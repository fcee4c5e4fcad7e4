import Mathlib.Data.List.Induction
import Mathlib.Data.List.Nodup

/-!
# First occurrences

`List.eraseDups` keeps the first occurrence of every element. A list that grows by what is
not in it yet computes it, and a list in which an element is moved to the front computes it
for the reversed history. Both may be cut without harm: a cut list forgets nothing that a
later cut would have kept.
-/

namespace Library

universe u
variable {α : Type u} [DecidableEq α]

/-- One more element is kept if it is new. -/
theorem eraseDups_append_one (items : List α) (last : α) :
    (items ++ [last]).eraseDups =
      if last ∈ items then items.eraseDups else items.eraseDups ++ [last] := by
  rw [List.eraseDups_append]
  by_cases seen : last ∈ items
  · simp [List.removeAll, seen]
  · simp [List.removeAll, seen, List.eraseDups_cons]

/-- Selecting elements and dropping repetitions commute. -/
theorem eraseDups_filter (keep : α → Bool) (items : List α) :
    (items.filter keep).eraseDups = items.eraseDups.filter keep := by
  induction items using List.reverseRecOn with
  | nil => rfl
  | append_singleton items last inductionHypothesis =>
    rw [List.filter_append, eraseDups_append_one]
    cases kept : keep last with
    | false =>
      rw [List.filter_cons_of_neg (by simp [kept]), List.filter_nil, List.append_nil, inductionHypothesis]
      split
      · rfl
      · simp [List.filter_append, kept]
    | true =>
      rw [List.filter_cons_of_pos kept, List.filter_nil, eraseDups_append_one, inductionHypothesis]
      by_cases seen : last ∈ items
      · simp [seen, kept]
      · simp [seen, kept, List.filter_append]

/-- A list without its repetitions is a sublist of it. -/
theorem eraseDups_sublist (items : List α) : items.eraseDups.Sublist items := by
  induction items using List.reverseRecOn with
  | nil => exact .slnil
  | append_singleton items last inductionHypothesis =>
    rw [eraseDups_append_one]
    split
    · exact inductionHypothesis.trans (List.sublist_append_left items [last])
    · exact inductionHypothesis.append (.refl [last])

/-- A list without its repetitions has none. -/
theorem nodup_eraseDups (items : List α) : items.eraseDups.Nodup := by
  induction items using List.reverseRecOn with
  | nil => exact .nil
  | append_singleton items last inductionHypothesis =>
    rw [eraseDups_append_one]
    split
    · exact inductionHypothesis
    · next fresh =>
      refine List.nodup_append.mpr ⟨inductionHypothesis, List.nodup_singleton last, ?_⟩
      intro item kept other same
      obtain rfl := List.mem_singleton.mp same
      rintro rfl
      exact fresh (List.mem_eraseDups.mp kept)

/-- Moving an element to the front of a cut list, and cutting it again, is moving it to the
front of the whole list. -/
theorem take_front (bound : Nat) (first : α) {items : List α} (distinct : items.Nodup) :
    (first :: (items.take bound).filter (· ≠ first)).take bound =
      (first :: items.filter (· ≠ first)).take bound := by
  cases bound with
  | zero => rfl
  | succ bound =>
    rw [List.take_succ_cons, List.take_succ_cons]
    congr 1
    by_cases long : bound + 1 < items.length
    · -- At most one element goes, so enough are left before the cut.
      have enough : bound ≤ ((items.take (bound + 1)).filter (· ≠ first)).length := by
        have cut : (items.take (bound + 1)).Nodup := distinct.sublist (List.take_sublist _ _)
        have erased := cut.erase_eq_filter first
        have left : bound ≤ ((items.take (bound + 1)).erase first).length := by
          rw [List.length_erase, List.length_take_of_le (by omega)]
          split <;> omega
        have same : (items.take (bound + 1)).filter (· != first) =
            (items.take (bound + 1)).filter (· ≠ first) :=
          List.filter_congr fun item _ => by by_cases here : item = first <;> simp [here]
        rwa [erased, same] at left
      calc ((items.take (bound + 1)).filter (· ≠ first)).take bound
          = ((items.take (bound + 1)).filter (· ≠ first) ++
              (items.drop (bound + 1)).filter (· ≠ first)).take bound :=
            (List.take_append_of_le_length enough).symm
        _ = (items.filter (· ≠ first)).take bound := by
            rw [← List.filter_append, List.take_append_drop]
    · rw [List.take_of_length_le (by omega : items.length ≤ bound + 1)]

end Library

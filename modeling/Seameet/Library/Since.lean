import Mathlib.Data.List.Induction

/-!
# Since

A fact about the present of a history often has a beginning in it: something started it, and
everything after let it stand. Both may depend on what came before. A property of histories
that one more event gives or takes in this way is such a fact.
-/

namespace Library

universe u
variable {α : Type u}

/-- Some event started it, and every event after let it stand. -/
def Since (starts keeps : List α → α → Prop) (events : List α) : Prop :=
  ∃ earlier event later, events = earlier ++ event :: later ∧ starts earlier event ∧
    ∀ between next rest, later = between ++ next :: rest → keeps (earlier ++ event :: between) next

section Laws

variable {starts keeps : List α → α → Prop}

/-- Nothing has started in an empty history. -/
theorem since_nil : ¬Since starts keeps [] := by
  rintro ⟨earlier, event, later, whole, _⟩
  simp at whole

/-- With one more event, it starts now or still stands. -/
theorem since_append_one (events : List α) (last : α) :
    Since starts keeps (events ++ [last]) ↔
      starts events last ∨ Since starts keeps events ∧ keeps events last := by
  constructor
  · rintro ⟨earlier, event, later, whole, started, kept⟩
    cases later using List.reverseRecOn with
    | nil =>
      obtain ⟨rfl, same⟩ := List.append_inj' whole rfl
      exact .inl (List.singleton_inj.mp same ▸ started)
    | append_singleton before final =>
      rw [← List.cons_append, ← List.append_assoc] at whole
      obtain ⟨rfl, same⟩ := List.append_inj' whole rfl
      obtain rfl := List.singleton_inj.mp same
      refine .inr ⟨⟨earlier, event, before, rfl, started, ?_⟩, kept before last [] rfl⟩
      intro between next rest split
      exact kept between next (rest ++ [last]) (by rw [split, List.append_assoc, List.cons_append])
  · rintro (started | ⟨⟨earlier, event, later, rfl, started, kept⟩, stands⟩)
    · exact ⟨events, last, [], rfl, started, fun _ _ _ none => by simp at none⟩
    · refine ⟨earlier, event, later ++ [last], by simp, started, ?_⟩
      intro between next rest split
      cases rest using List.reverseRecOn with
      | nil =>
        obtain ⟨rfl, same⟩ := List.append_inj' split rfl
        exact List.singleton_inj.mp same ▸ stands
      | append_singleton before final =>
        rw [← List.cons_append, ← List.append_assoc] at split
        exact kept between next before (List.append_inj' split rfl).1

/-- What every event gives or takes in this way holds since it was given. -/
theorem holds_iff_since {holds : List α → Prop} (initially : ¬holds [])
    (each : ∀ events last,
      holds (events ++ [last]) ↔ starts events last ∨ holds events ∧ keeps events last)
    (events : List α) : holds events ↔ Since starts keeps events := by
  induction events using List.reverseRecOn with
  | nil => exact iff_of_false initially since_nil
  | append_singleton events last inductionHypothesis =>
    rw [each, since_append_one, inductionHypothesis]

end Laws

end Library

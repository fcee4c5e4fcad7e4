import Mathlib.Data.List.Perm.Subperm
import Mathlib.Data.List.Nodup

/-!
# Exclusive leases

A pool of items is handed out to uses, at most one item to a use. The one law
of such a pool is that no item is out to two uses at once. Returning items
keeps it, and so does handing out an item nobody holds; every operation of a
pool is a sequence of these two. Under that law an item of the pool is free
exactly when fewer uses hold one than the pool has.
-/

namespace Library

universe u v
variable {υ : Type u} {μ : Type v}

/-- No item is held by two uses. -/
def Exclusive (held : υ → Option μ) : Prop :=
  ∀ use other item, held use = some item → held other = some item → use = other

namespace Exclusive

variable {held after : υ → Option μ}

/-- Returning items, and handing out none, keeps exclusivity. -/
theorem release (exclusive : Exclusive held)
    (narrower : ∀ use item, after use = some item → held use = some item) : Exclusive after := by
  intro use other item first second
  exact exclusive use other item (narrower use item first) (narrower other item second)

/-- Handing one item that nobody holds to one use keeps exclusivity. -/
theorem grant (exclusive : Exclusive held) (use : υ) (item : μ)
    (unheld : ∀ other, held other ≠ some item)
    (only : ∀ other taken, after other = some taken →
      held other = some taken ∨ (other = use ∧ taken = item)) : Exclusive after := by
  intro first second taken firstHolds secondHolds
  rcases only first taken firstHolds with old | ⟨rfl, rfl⟩
  · rcases only second taken secondHolds with alsoOld | ⟨_, rfl⟩
    · exact exclusive first second taken old alsoOld
    · exact absurd old (unheld first)
  · rcases only second taken secondHolds with old | ⟨same, _⟩
    · exact absurd old (unheld second)
    · exact same.symm

/-- Some item of the pool is held by none of the uses exactly when these, each
holding an item of it, are fewer than its items. -/
theorem exists_free_iff [DecidableEq μ] (exclusive : Exclusive held) {uses : List υ} {pool : List μ}
    (distinctUses : uses.Nodup) (distinctItems : pool.Nodup)
    (holds : ∀ use ∈ uses, ∃ item ∈ pool, held use = some item) :
    (∃ item ∈ pool, ∀ use ∈ uses, held use ≠ some item) ↔ uses.length < pool.length := by
  have taken : (uses.filterMap held).length = uses.length := by
    rw [List.length_filterMap_eq_countP, List.countP_eq_length]
    intro use member
    obtain ⟨item, _, held⟩ := holds use member
    simp [held]
  have within : uses.filterMap held ⊆ pool := by
    intro item member
    obtain ⟨use, listed, mine⟩ := List.mem_filterMap.mp member
    obtain ⟨other, pooled, same⟩ := holds use listed
    exact Option.some.inj (same.symm.trans mine) ▸ pooled
  have distinct : (uses.filterMap held).Nodup :=
    distinctUses.filterMap fun use other item mine too => exclusive use other item mine too
  have free : ∀ item, (∀ use ∈ uses, held use ≠ some item) ↔ item ∉ uses.filterMap held := by
    simp [List.mem_filterMap]
  simp only [free]
  constructor
  · rintro ⟨item, pooled, unheld⟩
    have room : (item :: uses.filterMap held).Subperm pool :=
      List.Nodup.subperm (List.nodup_cons.mpr ⟨unheld, distinct⟩)
        (List.cons_subset.mpr ⟨pooled, within⟩)
    have counted := room.length_le
    simp only [List.length_cons, taken] at counted
    omega
  · intro fewer
    by_contra full
    have all : pool ⊆ uses.filterMap held := by
      intro item pooled
      by_contra unheld
      exact full ⟨item, pooled, unheld⟩
    have counted := (List.Nodup.subperm distinctItems all).length_le
    omega

end Exclusive

end Library

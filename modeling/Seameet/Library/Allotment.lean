import Mathlib.Data.List.Perm.Basic
import Seameet.Library.Table

/-!
# Allotments

Things are lent from a stock. Each is free, or held by somebody, or lost with somebody who
held it. While nobody takes but from the stock, and what is given back or lost was held, each
thing stays in one place: nobody holds what is free, and no two hold the same.
-/

namespace Library

universe u v w
variable {κ : Type u} {ν : Type v} {ρ : Type w}

section Values

variable [DecidableEq κ] {table : Table κ ν} {key : κ} {value : ν}

/-- A new entry stands before the others. -/
theorem Table.values_insert (absent : table.lookup key = none) :
    Table.values (table.insert key value) = value :: table.values := by
  rw [Table.values, AList.entries_insert_of_notMem (AList.lookup_eq_none.mp absent)]
  rfl

/-- An entry that is erased is missing afterwards, and no other. -/
theorem Table.values_erase (stored : table.lookup key = some value) :
    table.values.Perm (value :: Table.values (table.erase key)) := by
  have listed : key ∈ table.entries.keys := AList.lookup_isSome.mp (by rw [stored]; rfl)
  obtain ⟨held, before, after, _, whole, erased⟩ := List.exists_of_kerase listed
  have same : held = value := by
    have present : (⟨key, held⟩ : Sigma fun _ : κ => ν) ∈ table.entries := by
      rw [whole]
      exact List.mem_append_right _ List.mem_cons_self
    exact Option.some.inj (((Table.mem_entries key held table).mp present).symm.trans stored)
  have left : Table.values (table.erase key) = (before ++ after).map Sigma.snd := by
    show (List.kerase key table.entries).map Sigma.snd = _
    rw [erased]
  rw [left, Table.values, whole, List.map_append, List.map_cons, List.map_append, same]
  exact List.perm_middle

end Values

/-- The whole stock: what is free, what the entries of a table hold, and what is lost. -/
def Allotted (place : ν → ρ) (free : List ρ) (held : Table κ ν) (lost whole : List ρ) : Prop :=
  (free ++ held.values.map place ++ lost).Perm whole

namespace Allotted

/-- All of a stock is free at first. -/
theorem fresh (place : ν → ρ) (whole : List ρ) :
    Allotted place whole (∅ : Table κ ν) [] whole := by
  simp [Allotted, Table.values]

variable {place : ν → ρ} {free lost whole : List ρ} {held : Table κ ν} {key : κ} {value : ν}

/-- The stock grows. -/
theorem extend (allotted : Allotted place free held lost whole) (more : List ρ) :
    Allotted place (free ++ more) held lost (whole ++ more) := by
  have grown := List.Perm.append_right more allotted
  refine List.Perm.trans ?_ grown
  simp only [List.append_assoc]
  refine List.Perm.append_left free ?_
  rw [← List.append_assoc (held.values.map place)]
  exact List.perm_append_comm

variable [DecidableEq κ]

/-- One is taken from the stock. -/
theorem take {first : ρ} (allotted : Allotted place (first :: free) held lost whole)
    (absent : held.lookup key = none) (taken : place value = first) :
    Allotted place free (held.insert key value) lost whole := by
  rw [Allotted, Table.values_insert absent, List.map_cons, taken]
  refine List.Perm.trans ?_ allotted
  simp

/-- One is given back, and is the next to be taken. -/
theorem giveBack (allotted : Allotted place free held lost whole)
    (stored : held.lookup key = some value) :
    Allotted place (place value :: free) (held.erase key) lost whole := by
  have moved := ((Table.values_erase stored).map place).append_left free
  refine List.Perm.trans ?_ allotted
  refine List.Perm.append_right lost ?_
  exact (List.Perm.trans moved List.perm_middle).symm

/-- One is lost. -/
theorem lose (allotted : Allotted place free held lost whole)
    (stored : held.lookup key = some value) :
    Allotted place free (held.erase key) (place value :: lost) whole := by
  have moved := allotted.giveBack stored
  refine List.Perm.trans ?_ moved
  rw [List.cons_append, List.cons_append]
  exact List.perm_middle

/-- What is held is not free, and nobody else holds it. -/
theorem apart (allotted : Allotted place free held lost whole) (distinct : whole.Nodup)
    (stored : held.lookup key = some value) :
    place value ∉ free ∧ ∀ other also, held.lookup other = some also → place also = place value →
      other = key := by
  have moved := allotted.giveBack stored
  have single := moved.nodup_iff.mpr distinct
  rw [List.cons_append, List.cons_append, List.nodup_cons] at single
  refine ⟨fun here => single.1 (by simp [here]), ?_⟩
  intro other also found same
  by_contra different
  apply single.1
  have kept : (held.erase key).lookup other = some also := by
    rw [Table.lookup_erase_eq, if_neg different, found]
  have listed := List.mem_map_of_mem (f := place) ((Table.mem_values also (held.erase key)).mpr ⟨other, kept⟩)
  rw [same] at listed
  simp [listed]

end Allotted

end Library

import Mathlib.Data.List.AList

/-!
# Tables

A hash map of an imperative program is modelled by an association list with
distinct keys, so a key read twice gives one value and a traversal meets every
entry once. The traversal order is the list's own. Laws about a table are
stated through `lookup`, which no order affects; a program whose result depends
on the order of a traversal must take that order as an input of its own.
-/

namespace Library

universe u v

/-- A finite map with distinct keys. -/
abbrev Table (κ : Type u) (ν : Type v) := AList (fun _ : κ => ν)

namespace Table

variable {κ : Type u} {ν : Type v}

/-- The stored values, in traversal order. -/
def values (table : Table κ ν) : List ν := table.entries.map Sigma.snd

/-- Keep exactly the entries that pass the test. -/
def retain (keep : κ → ν → Bool) (table : Table κ ν) : Table κ ν :=
  ⟨table.entries.filter (fun entry => keep entry.1 entry.2),
    (List.filter_sublist.map _).nodup table.nodupKeys⟩

/-- Change every stored value. -/
def mapValues (change : ν → ν) (table : Table κ ν) : Table κ ν :=
  ⟨table.entries.map fun entry => ⟨entry.1, change entry.2⟩, by
    have keys : (table.entries.map fun entry => (⟨entry.1, change entry.2⟩ : Sigma fun _ : κ => ν)).keys =
        table.entries.keys := by simp [List.keys]
    rw [List.NodupKeys, keys]
    exact table.nodupKeys⟩

variable [DecidableEq κ]

/-- Change the value stored under a key; an absent key stays absent. -/
def modify (key : κ) (change : ν → ν) (table : Table κ ν) : Table κ ν :=
  match table.lookup key with
  | some value => table.insert key (change value)
  | none => table

/-- Reading after an insertion, at any key. -/
theorem lookup_insert_eq (key tested : κ) (value : ν) (table : Table κ ν) :
    (table.insert key value).lookup tested =
      if tested = key then some value else table.lookup tested := by
  by_cases same : tested = key
  · subst same
    simp
  · simp [same, AList.lookup_insert_ne same]

/-- Reading after a removal, at any key. -/
theorem lookup_erase_eq (key tested : κ) (table : Table κ ν) :
    (table.erase key).lookup tested = if tested = key then none else table.lookup tested := by
  by_cases same : tested = key
  · subst same
    simp
  · simp [same, AList.lookup_erase_ne same]

/-- Reading after an update, at any key. -/
theorem lookup_modify (key tested : κ) (change : ν → ν) (table : Table κ ν) :
    (table.modify key change).lookup tested =
      if tested = key then (table.lookup key).map change else table.lookup tested := by
  unfold modify
  cases stored : table.lookup key with
  | some value => simp [lookup_insert_eq]
  | none =>
    by_cases same : tested = key
    · subst same
      simp [stored]
    · simp [same]

/-- An entry is listed exactly when its key reads its value. -/
theorem mem_entries (key : κ) (value : ν) (table : Table κ ν) :
    (⟨key, value⟩ : Sigma fun _ : κ => ν) ∈ table.entries ↔ table.lookup key = some value :=
  (AList.mem_lookup_iff (β := fun _ : κ => ν)).symm

/-- Reading after a change of every value. -/
theorem lookup_mapValues (change : ν → ν) (tested : κ) (table : Table κ ν) :
    (table.mapValues change).lookup tested = (table.lookup tested).map change := by
  apply Option.ext
  intro value
  rw [← mem_entries, mapValues, List.mem_map, Option.map_eq_some_iff]
  constructor
  · rintro ⟨⟨key, stored⟩, listed, same⟩
    cases same
    exact ⟨stored, (mem_entries key stored table).mp listed, rfl⟩
  · rintro ⟨stored, present, rfl⟩
    exact ⟨⟨tested, stored⟩, (mem_entries tested stored table).mpr present, rfl⟩

/-- The listed values are those some key reads. -/
theorem mem_values (value : ν) (table : Table κ ν) :
    value ∈ table.values ↔ ∃ key, table.lookup key = some value := by
  simp only [values, List.mem_map, Sigma.exists, mem_entries]
  constructor
  · rintro ⟨key, stored, present, rfl⟩
    exact ⟨key, present⟩
  · rintro ⟨key, present⟩
    exact ⟨key, value, present, rfl⟩

/-- The listed keys are those that read a value. -/
theorem mem_keys (key : κ) (table : Table κ ν) :
    key ∈ table.keys ↔ ∃ value, table.lookup key = some value := by
  rw [← AList.mem_keys, ← AList.lookup_isSome, Option.isSome_iff_exists]

/-- Every entry has the property. -/
def Every (table : Table κ ν) (property : κ → ν → Prop) : Prop :=
  ∀ key value, table.lookup key = some value → property key value

/-- Some entry has the property. -/
def Any (table : Table κ ν) (property : κ → ν → Prop) : Prop :=
  ∃ key value, table.lookup key = some value ∧ property key value

/-- Every listed entry has the property. -/
theorem every_iff (table : Table κ ν) (property : κ → ν → Prop) :
    (∀ entry ∈ table.entries, property entry.1 entry.2) ↔ table.Every property := by
  constructor
  · intro listed key value stored
    exact listed ⟨key, value⟩ ((mem_entries key value table).mpr stored)
  · rintro each ⟨key, value⟩ present
    exact each key value ((mem_entries key value table).mp present)

/-- Some listed entry has the property. -/
theorem any_iff (table : Table κ ν) (property : κ → ν → Prop) :
    (∃ entry ∈ table.entries, property entry.1 entry.2) ↔ table.Any property := by
  constructor
  · rintro ⟨⟨key, value⟩, present, held⟩
    exact ⟨key, value, (mem_entries key value table).mp present, held⟩
  · rintro ⟨key, value, stored, held⟩
    exact ⟨⟨key, value⟩, (mem_entries key value table).mpr stored, held⟩

instance (table : Table κ ν) (property : κ → ν → Prop) [∀ key value, Decidable (property key value)] :
    Decidable (table.Every property) :=
  decidable_of_iff _ (every_iff table property)

instance (table : Table κ ν) (property : κ → ν → Prop) [∀ key value, Decidable (property key value)] :
    Decidable (table.Any property) :=
  decidable_of_iff _ (any_iff table property)

/-- Reading after a retention: the stored value, if it passed the test. -/
theorem lookup_retain (keep : κ → ν → Bool) (tested : κ) (table : Table κ ν) :
    (table.retain keep).lookup tested = (table.lookup tested).filter (keep tested) := by
  apply Option.ext
  intro value
  rw [← mem_entries, retain, List.mem_filter, mem_entries, Option.filter_eq_some_iff]

end Table

end Library

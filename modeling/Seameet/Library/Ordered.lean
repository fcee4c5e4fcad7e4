import Mathlib.Order.Lattice
import Mathlib.Data.Nat.Basic

/-!
# Ordered maps

A map kept in increasing order of its keys, as an ordered tree map of an
imperative program is traversed. The order is a field of the structure, so every
operation carries its own proof that it keeps it, and the first entry is always
the one with the lowest key.
-/

namespace Library

universe u v

/-- A finite map whose entries stand in increasing order of their keys. -/
structure Ordered (κ : Type u) (ν : Type v) [LinearOrder κ] where
  entries : List (κ × ν)
  increasing : entries.Pairwise (fun earlier later => earlier.1 < later.1)

namespace Ordered

variable {κ : Type u} {ν : Type v} [LinearOrder κ]

/-- The map with no entry. -/
def empty : Ordered κ ν := ⟨[], .nil⟩

/-- The keys, lowest first. -/
def keys (map : Ordered κ ν) : List κ := map.entries.map Prod.fst

/-- How many entries there are. -/
def size (map : Ordered κ ν) : Nat := map.entries.length

/-- The entry with the lowest key. -/
def first? (map : Ordered κ ν) : Option (κ × ν) := map.entries.head?

/-- The value stored under a key. -/
def lookup (map : Ordered κ ν) (key : κ) : Option ν :=
  (map.entries.find? (fun entry => entry.1 == key)).map Prod.snd

/-- Put an entry at its place; an entry with the same key is replaced. -/
def place (key : κ) (value : ν) : List (κ × ν) → List (κ × ν)
  | [] => [(key, value)]
  | entry :: rest =>
      if key < entry.1 then (key, value) :: entry :: rest
      else if key = entry.1 then (key, value) :: rest
      else entry :: place key value rest

/-- Placing adds the new entry and nothing else. -/
theorem mem_of_mem_place {key : κ} {value : ν} {entries : List (κ × ν)} {entry : κ × ν}
    (member : entry ∈ place key value entries) : entry = (key, value) ∨ entry ∈ entries := by
  induction entries with
  | nil => exact .inl (List.mem_singleton.mp member)
  | cons head rest inductionHypothesis =>
    simp only [place] at member
    split at member
    · rcases List.mem_cons.mp member with here | there
      · exact .inl here
      · exact .inr there
    · split at member
      · rcases List.mem_cons.mp member with here | there
        · exact .inl here
        · exact .inr (List.mem_cons_of_mem head there)
      · rcases List.mem_cons.mp member with here | there
        · exact .inr (here ▸ List.mem_cons_self)
        · rcases inductionHypothesis there with new | old
          · exact .inl new
          · exact .inr (List.mem_cons_of_mem head old)

/-- Placing an entry keeps the keys increasing. -/
theorem place_increasing (key : κ) (value : ν) (entries : List (κ × ν))
    (increasing : entries.Pairwise (fun earlier later => earlier.1 < later.1)) :
    (place key value entries).Pairwise (fun earlier later => earlier.1 < later.1) := by
  induction entries with
  | nil => exact List.pairwise_singleton _ _
  | cons head rest inductionHypothesis =>
    obtain ⟨above, later⟩ := List.pairwise_cons.mp increasing
    simp only [place]
    split
    · next below =>
      refine List.pairwise_cons.mpr ⟨?_, increasing⟩
      intro entry member
      rcases List.mem_cons.mp member with rfl | there
      · exact below
      · exact lt_trans below (above entry there)
    · next notBelow =>
      split
      · next same => exact List.pairwise_cons.mpr ⟨fun entry member => same ▸ above entry member, later⟩
      · next other =>
        refine List.pairwise_cons.mpr ⟨?_, inductionHypothesis later⟩
        intro entry member
        rcases mem_of_mem_place member with rfl | old
        · exact lt_of_le_of_ne (not_lt.mp notBelow) (Ne.symm other)
        · exact above entry old

/-- Store a value under a key, in place of an earlier one. -/
def insert (key : κ) (value : ν) (map : Ordered κ ν) : Ordered κ ν :=
  ⟨place key value map.entries, place_increasing key value map.entries map.increasing⟩

/-- Take a key out. -/
def erase (key : κ) (map : Ordered κ ν) : Ordered κ ν :=
  ⟨map.entries.filter (fun entry => entry.1 != key), map.increasing.filter _⟩

/-- Drop the lowest entries while there are more than the bound. -/
def dropLowest (bound : Nat) : List (κ × ν) → List (κ × ν)
  | [] => []
  | entry :: rest =>
      if bound < (entry :: rest).length then dropLowest bound rest else entry :: rest

omit [LinearOrder κ] in
/-- Dropping the lowest entries leaves a sublist. -/
theorem dropLowest_sublist (bound : Nat) (entries : List (κ × ν)) :
    (dropLowest bound entries).Sublist entries := by
  induction entries with
  | nil => exact List.Sublist.refl _
  | cons entry rest inductionHypothesis =>
    simp only [dropLowest]
    split
    · exact inductionHypothesis.cons entry
    · exact List.Sublist.refl _

/-- Keep at most this many entries, dropping the lowest keys first. -/
def keepHighest (bound : Nat) (map : Ordered κ ν) : Ordered κ ν :=
  ⟨dropLowest bound map.entries, map.increasing.sublist (dropLowest_sublist bound map.entries)⟩

/-- A key is among the keys exactly where an entry has it. -/
theorem mem_keys {map : Ordered κ ν} {key : κ} :
    key ∈ map.keys ↔ ∃ value, (key, value) ∈ map.entries := by
  simp [keys]

/-- A key has one value. -/
theorem lookup_eq_some {map : Ordered κ ν} {key : κ} {value : ν} :
    map.lookup key = some value ↔ (key, value) ∈ map.entries := by
  obtain ⟨entries, increasing⟩ := map
  show (entries.find? (fun entry => entry.1 == key)).map Prod.snd = some value ↔ _
  induction entries with
  | nil => simp
  | cons entry rest inductionHypothesis =>
    obtain ⟨above, later⟩ := List.pairwise_cons.mp increasing
    by_cases here : entry.1 = key
    · have absent : (key, value) ∉ rest := by
        intro member
        have below := above _ member
        rw [here] at below
        exact lt_irrefl key below
      have pair : (key, value) = entry ↔ entry.2 = value := by
        rw [← here]
        constructor
        · intro same
          rw [← same]
        · intro same
          rw [← same]
      rw [List.find?_cons_of_pos (by simpa using here), Option.map_some, Option.some.injEq,
        List.mem_cons, or_iff_left absent, pair]
    · have apart : (key, value) ≠ entry := by
        intro same
        exact here (same ▸ rfl)
      rw [List.find?_cons_of_neg (by simpa using here), inductionHypothesis later, List.mem_cons]
      exact (or_iff_right apart).symm

/-- Nothing is found exactly where the key is not among the keys. -/
theorem lookup_eq_none {map : Ordered κ ν} {key : κ} : map.lookup key = none ↔ key ∉ map.keys := by
  constructor
  · intro absent member
    obtain ⟨value, stored⟩ := mem_keys.mp member
    rw [lookup_eq_some.mpr stored] at absent
    cases absent
  · intro absent
    cases found : map.lookup key with
    | none => rfl
    | some value => exact absurd (mem_keys.mpr ⟨value, lookup_eq_some.mp found⟩) absent

/-- Storing changes the entry under the key and no other. -/
theorem mem_insert {map : Ordered κ ν} {key : κ} {value : ν} {entry : κ × ν} :
    entry ∈ (map.insert key value).entries ↔
      entry = (key, value) ∨ entry ∈ map.entries ∧ entry.1 ≠ key := by
  obtain ⟨entries, increasing⟩ := map
  show entry ∈ place key value entries ↔ entry = (key, value) ∨ entry ∈ entries ∧ entry.1 ≠ key
  induction entries with
  | nil => simp [place]
  | cons head rest inductionHypothesis =>
    obtain ⟨above, later⟩ := List.pairwise_cons.mp increasing
    simp only [place]
    split
    · next below =>
      have apart : entry ∈ head :: rest → entry.1 ≠ key := by
        intro member same
        rcases List.mem_cons.mp member with rfl | there
        · exact absurd same (ne_of_gt below)
        · exact absurd same (ne_of_gt (lt_trans below (above entry there)))
      rw [List.mem_cons]
      exact or_congr_right ⟨fun member => ⟨member, apart member⟩, And.left⟩
    · split
      · next same =>
        have apart : entry ∈ rest → entry.1 ≠ key := by
          intro member equal
          exact absurd (equal.trans same) (ne_of_gt (above entry member))
        rw [List.mem_cons, List.mem_cons]
        refine or_congr_right ⟨fun member => ⟨.inr member, apart member⟩, ?_⟩
        rintro ⟨rfl | member, other⟩
        · exact absurd same.symm other
        · exact member
      · next other =>
        rw [List.mem_cons, List.mem_cons, inductionHypothesis later]
        constructor
        · rintro (rfl | new | ⟨old, apart⟩)
          · exact .inr ⟨.inl rfl, Ne.symm other⟩
          · exact .inl new
          · exact .inr ⟨.inr old, apart⟩
        · rintro (new | ⟨rfl | old, apart⟩)
          · exact .inr (.inl new)
          · exact .inl rfl
          · exact .inr (.inr ⟨old, apart⟩)

/-- An entry after an insertion is the new one or was there before. -/
theorem mem_of_mem_insert {map : Ordered κ ν} {key : κ} {value : ν} {entry : κ × ν}
    (member : entry ∈ (map.insert key value).entries) :
    entry = (key, value) ∨ entry ∈ map.entries := mem_of_mem_place member

/-- A key after an insertion is the new one or was there before. -/
theorem mem_keys_insert {map : Ordered κ ν} {key other : κ} {value : ν} :
    other ∈ (map.insert key value).keys ↔ other = key ∨ other ∈ map.keys := by
  constructor
  · intro there
    obtain ⟨held, member⟩ := mem_keys.mp there
    rcases mem_of_mem_insert member with new | old
    · exact .inl (congrArg Prod.fst new)
    · exact .inr (mem_keys.mpr ⟨held, old⟩)
  · intro either
    by_cases own : other = key
    · exact mem_keys.mpr ⟨value, mem_insert.mpr (.inl (own ▸ rfl))⟩
    · obtain ⟨held, old⟩ := mem_keys.mp (either.resolve_left own)
      exact mem_keys.mpr ⟨held, mem_insert.mpr (.inr ⟨old, own⟩)⟩

/-- An entry after an erasure was there before and has another key. -/
theorem mem_erase {map : Ordered κ ν} {key : κ} {entry : κ × ν} :
    entry ∈ (map.erase key).entries ↔ entry ∈ map.entries ∧ entry.1 ≠ key := by
  simp [erase]

/-- Keeping the highest entries adds none. -/
theorem mem_of_mem_keepHighest {map : Ordered κ ν} {bound : Nat} {entry : κ × ν}
    (member : entry ∈ (map.keepHighest bound).entries) : entry ∈ map.entries :=
  (dropLowest_sublist bound map.entries).subset member

/-- The bound is met after the lowest entries are dropped. -/
theorem keepHighest_size (bound : Nat) (map : Ordered κ ν) : (map.keepHighest bound).size ≤ bound := by
  obtain ⟨entries, increasing⟩ := map
  show (dropLowest bound entries).length ≤ bound
  induction entries with
  | nil => exact Nat.zero_le bound
  | cons entry rest inductionHypothesis =>
    simp only [dropLowest]
    split
    · exact inductionHypothesis (List.pairwise_cons.mp increasing).2
    · next enough => exact Nat.le_of_not_lt enough

/-- An entry is kept exactly when fewer entries than the bound have higher keys. -/
theorem mem_keepHighest_iff {bound : Nat} {map : Ordered κ ν} {entry : κ × ν}
    (member : entry ∈ map.entries) :
    entry ∈ (map.keepHighest bound).entries ↔
      (map.entries.filter (fun other => entry.1 < other.1)).length < bound := by
  obtain ⟨entries, increasing⟩ := map
  show entry ∈ dropLowest bound entries ↔ (entries.filter (fun other => entry.1 < other.1)).length < bound
  induction entries with
  | nil => cases member
  | cons head rest inductionHypothesis =>
    obtain ⟨above, later⟩ := List.pairwise_cons.mp increasing
    simp only [dropLowest]
    rcases List.mem_cons.mp member with rfl | there
    · have higher : ((entry :: rest).filter (fun other => entry.1 < other.1)).length = rest.length := by
        rw [List.filter_cons_of_neg (by simp), List.filter_eq_self.mpr]
        intro other inside
        exact decide_eq_true (above other inside)
      rw [higher]
      split
      · next beyond =>
        refine ⟨fun kept => ?_, fun few => absurd (Nat.le_of_lt_succ beyond) (Nat.not_le_of_lt few)⟩
        exact absurd (above _ ((dropLowest_sublist bound rest).subset kept)) (lt_irrefl _)
      · next enough => exact ⟨fun _ => Nat.lt_of_lt_of_le (Nat.lt_succ_self _) (Nat.le_of_not_lt enough),
          fun _ => List.mem_cons_self⟩
    · have same : (head :: rest).filter (fun other => entry.1 < other.1) =
          rest.filter (fun other => entry.1 < other.1) :=
        List.filter_cons_of_neg (by simpa using le_of_lt (above entry there))
      rw [same]
      split
      · exact inductionHypothesis later there
      · next enough =>
        refine ⟨fun _ => ?_, fun _ => member⟩
        have fewer := List.length_filter_le (fun other => decide (entry.1 < other.1)) rest
        exact Nat.lt_of_le_of_lt fewer (Nat.lt_of_lt_of_le (Nat.lt_succ_self _) (Nat.le_of_not_lt enough))

/-- A key survives exactly where fewer than the bound are above it. -/
theorem mem_keys_keepHighest {bound : Nat} {map : Ordered κ ν} {key : κ} :
    key ∈ (map.keepHighest bound).keys ↔
      key ∈ map.keys ∧ (map.entries.filter (fun other => key < other.1)).length < bound := by
  constructor
  · intro kept
    obtain ⟨value, member⟩ := mem_keys.mp kept
    have stored := mem_of_mem_keepHighest member
    exact ⟨mem_keys.mpr ⟨value, stored⟩, (mem_keepHighest_iff stored).mp member⟩
  · rintro ⟨there, few⟩
    obtain ⟨value, stored⟩ := mem_keys.mp there
    exact mem_keys.mpr ⟨value, (mem_keepHighest_iff stored).mpr few⟩

/-- Erasing makes a map no larger. -/
theorem erase_size (key : κ) (map : Ordered κ ν) : (map.erase key).size ≤ map.size :=
  List.length_filter_le _ _

/-- Taking out a stored entry leaves fewer. -/
theorem erase_size_lt {map : Ordered κ ν} {entry : κ × ν} (member : entry ∈ map.entries) :
    (map.erase entry.1).size < map.size :=
  List.length_filter_lt_length_iff_exists.mpr ⟨entry, member, by simp⟩

/-- The first entry is stored, and no key is below its own. -/
theorem first_lowest {map : Ordered κ ν} {entry : κ × ν} (found : map.first? = some entry) :
    entry ∈ map.entries ∧ ∀ other ∈ map.entries, entry.1 ≤ other.1 := by
  obtain ⟨entries, increasing⟩ := map
  cases entries with
  | nil => cases found
  | cons head rest =>
    obtain rfl : head = entry := Option.some.inj found
    refine ⟨List.mem_cons_self, ?_⟩
    intro other member
    rcases List.mem_cons.mp member with rfl | there
    · exact le_refl _
    · exact le_of_lt ((List.pairwise_cons.mp increasing).1 other there)

/-- Increasing numbers below a limit are no more than there is room for. -/
theorem length_le_room {entries : List (Nat × ν)} {start limit : Nat}
    (increasing : entries.Pairwise (fun earlier later => earlier.1 < later.1))
    (from_start : ∀ entry ∈ entries, start ≤ entry.1 ∧ entry.1 < limit) :
    entries.length ≤ limit - start := by
  induction entries generalizing start with
  | nil => exact Nat.zero_le _
  | cons head rest inductionHypothesis =>
    obtain ⟨above, later⟩ := List.pairwise_cons.mp increasing
    have within := from_start head List.mem_cons_self
    have fewer : rest.length ≤ limit - (start + 1) := by
      apply inductionHypothesis later
      intro entry member
      have higher := above entry member
      have bounded := (from_start entry (List.mem_cons_of_mem head member)).2
      omega
    rw [List.length_cons]
    omega

/-- A number is kept when the numbers from it up to the limit fit the bound. -/
theorem mem_keepHighest {map : Ordered Nat ν} {bound limit : Nat} {entry : Nat × ν}
    (member : entry ∈ map.entries) (below : ∀ other ∈ map.entries, other.1 < limit)
    (near : limit ≤ entry.1 + bound) : entry ∈ (map.keepHighest bound).entries := by
  obtain ⟨entries, increasing⟩ := map
  show entry ∈ dropLowest bound entries
  induction entries with
  | nil => cases member
  | cons head rest inductionHypothesis =>
    obtain ⟨above, later⟩ := List.pairwise_cons.mp increasing
    simp only [dropLowest]
    split
    · next beyond =>
      have room : (head :: rest).length ≤ limit - head.1 := by
        apply length_le_room increasing
        intro other inside
        refine ⟨?_, below other inside⟩
        rcases List.mem_cons.mp inside with rfl | there
        · exact Nat.le_refl _
        · exact Nat.le_of_lt (above other there)
      rcases List.mem_cons.mp member with rfl | there
      · omega
      · exact inductionHypothesis later there
          (fun other inside => below other (List.mem_cons_of_mem head inside))
    · exact member

end Ordered

end Library

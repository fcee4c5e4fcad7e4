import Mathlib.Data.List.Basic

/-!
# Lists in pieces

A list is cut into pieces of at most a given size, and a list of marked items is cut
after each marked one. Cutting to size loses nothing and makes no empty piece; cutting
after the marks recovers the pieces that a list was put together from, when each of
them is marked at its end and nowhere else.
-/

namespace Library

universe u
variable {α : Type u}

/-- Cut off pieces while there are items, and while the fuel lasts. -/
def cutWith (size : Nat) : Nat → List α → List (List α)
  | 0, _ => []
  | _ + 1, [] => []
  | fuel + 1, item :: rest =>
      (item :: rest).take size :: cutWith size fuel ((item :: rest).drop size)

/-- The pieces of a list, each of the given size but the last one, which may be shorter. -/
def chunks (size : Nat) (items : List α) : List (List α) := cutWith size items.length items

variable {size : Nat} {items : List α}

/-- Nothing is lost. The induction is on the fuel, of which each item has one unit. -/
theorem cutWith_flatten (positive : 0 < size) (fuel : Nat) (enough : items.length ≤ fuel) :
    (cutWith size fuel items).flatten = items := by
  induction fuel generalizing items with
  | zero => rw [List.length_eq_zero_iff.mp (Nat.le_zero.mp enough), cutWith, List.flatten_nil]
  | succ fuel inductionHypothesis =>
    cases items with
    | nil => rfl
    | cons item rest =>
      have shorter : ((item :: rest).drop size).length ≤ fuel := by
        rw [List.length_drop]
        omega
      rw [cutWith, List.flatten_cons, inductionHypothesis shorter, List.take_append_drop]

/-- The pieces of a list, one after another, are the list. -/
theorem chunks_flatten (positive : 0 < size) (items : List α) : (chunks size items).flatten = items :=
  cutWith_flatten positive items.length (Nat.le_refl _)

/-- No piece is empty or too long. -/
theorem cutWith_size (positive : 0 < size) (fuel : Nat) :
    ∀ piece ∈ cutWith size fuel items, 1 ≤ piece.length ∧ piece.length ≤ size := by
  induction fuel generalizing items with
  | zero => simp [cutWith]
  | succ fuel inductionHypothesis =>
    cases items with
    | nil => simp [cutWith]
    | cons item rest =>
      intro piece member
      rcases List.mem_cons.mp member with rfl | later
      · rw [List.length_take, List.length_cons]
        omega
      · exact inductionHypothesis piece later

/-- A piece is not empty and no longer than the size. -/
theorem chunks_size (positive : 0 < size) {piece : List α} (member : piece ∈ chunks size items) :
    1 ≤ piece.length ∧ piece.length ≤ size :=
  cutWith_size positive items.length piece member

/-- Only the empty list has no piece. -/
theorem chunks_eq_nil (positive : 0 < size) : chunks size items = [] ↔ items = [] := by
  constructor
  · intro none
    have whole := chunks_flatten positive items
    rw [none] at whole
    exact whole.symm
  · rintro rfl
    rfl

/-- Pieces of the full size are recovered from the list they make up. The induction is on
the fuel. -/
theorem cutWith_even (positive : 0 < size) (fuel : Nat) {pieces : List (List α)}
    (even : ∀ piece ∈ pieces, piece.length = size) (enough : pieces.flatten.length ≤ fuel) :
    cutWith size fuel pieces.flatten = pieces := by
  induction fuel generalizing pieces with
  | zero =>
    cases pieces with
    | nil => rfl
    | cons piece rest =>
      have full := even piece List.mem_cons_self
      rw [List.flatten_cons, List.length_append] at enough
      omega
  | succ fuel inductionHypothesis =>
    cases pieces with
    | nil => rfl
    | cons piece rest =>
      have full := even piece List.mem_cons_self
      rw [List.flatten_cons, List.length_append] at enough
      have later := inductionHypothesis (fun other member => even other (List.mem_cons_of_mem piece member))
        (show rest.flatten.length ≤ fuel by omega)
      rw [List.flatten_cons]
      cases piece with
      | nil =>
        rw [List.length_nil] at full
        omega
      | cons item items =>
        have ahead : ((item :: items) ++ rest.flatten).take size = item :: items := by
          rw [← full, List.take_left]
        have behind : ((item :: items) ++ rest.flatten).drop size = rest.flatten := by
          rw [← full, List.drop_left]
        rw [List.cons_append] at ahead behind ⊢
        rw [cutWith, ahead, behind, later]

/-- Pieces of the full size are cut out again as they were put together. -/
theorem chunks_even (positive : 0 < size) {pieces : List (List α)}
    (even : ∀ piece ∈ pieces, piece.length = size) : chunks size pieces.flatten = pieces :=
  cutWith_even positive _ even (Nat.le_refl _)

/-- A list whose length the size divides is cut into pieces of that size. -/
theorem cutWith_full (positive : 0 < size) (fuel : Nat) (enough : items.length ≤ fuel)
    (divides : items.length % size = 0) :
    ∀ piece ∈ cutWith size fuel items, piece.length = size := by
  induction fuel generalizing items with
  | zero => simp [cutWith]
  | succ fuel inductionHypothesis =>
    cases items with
    | nil => simp [cutWith]
    | cons item rest =>
      have long : size ≤ (item :: rest).length := by
        refine Nat.le_of_not_lt fun short => ?_
        rw [Nat.mod_eq_of_lt short] at divides
        cases divides
      intro piece member
      rcases List.mem_cons.mp member with rfl | later
      · exact List.length_take_of_le long
      · refine inductionHypothesis ?_ ?_ piece later
        · rw [List.length_drop]
          rw [List.length_cons] at enough ⊢
          omega
        · rw [List.length_drop, ← Nat.mod_eq_sub_mod long, divides]

/-- Where the size divides the length every piece is full. -/
theorem chunks_full (positive : 0 < size) (divides : items.length % size = 0) {piece : List α}
    (member : piece ∈ chunks size items) : piece.length = size :=
  cutWith_full positive items.length (Nat.le_refl _) divides piece member

/-- Cut a list after each marked item. What follows the last mark is a piece too. -/
def cutAfter (marked : α → Bool) : List α → List (List α)
  | [] => []
  | item :: rest =>
      if marked item then [item] :: cutAfter marked rest
      else
        match cutAfter marked rest with
        | [] => [[item]]
        | piece :: pieces => (item :: piece) :: pieces

/-- A list whose last item is marked, and no other. -/
def Closed (marked : α → Bool) (items : List α) : Prop :=
  ∃ unmarked last, items = unmarked ++ [last] ∧ marked last = true ∧
    ∀ item ∈ unmarked, marked item = false

variable {marked : α → Bool}

/-- A closed list at the front is the first piece. The induction is on the items before
its mark. -/
theorem cutAfter_append (closed : Closed marked items) (rest : List α) :
    cutAfter marked (items ++ rest) = items :: cutAfter marked rest := by
  obtain ⟨unmarked, last, rfl, ends, none⟩ := closed
  induction unmarked with
  | nil => simp [cutAfter, ends]
  | cons item unmarked inductionHypothesis =>
    have plain := none item List.mem_cons_self
    have later := inductionHypothesis fun other member => none other (List.mem_cons_of_mem item member)
    rw [List.cons_append, List.cons_append, cutAfter, later, plain]
    rfl

/-- The pieces of a list of closed pieces are those it was put together from. -/
theorem cutAfter_flatten (pieces : List (List α)) (closed : ∀ piece ∈ pieces, Closed marked piece) :
    cutAfter marked pieces.flatten = pieces := by
  induction pieces with
  | nil => rfl
  | cons piece pieces inductionHypothesis =>
    have later := inductionHypothesis fun other member =>
      closed other (List.mem_cons_of_mem piece member)
    rw [List.flatten_cons, cutAfter_append (closed piece List.mem_cons_self), later]

end Library

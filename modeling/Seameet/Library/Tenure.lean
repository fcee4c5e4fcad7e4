import Mathlib.Data.List.Nodup

/-!
# A place and its successive holders

A place is held by at most one token. Taking it puts the own token there, over
whatever token is there. Giving it up removes a token only if it is the own one.
Tokens are handed out once each, so whoever took the place last keeps it until
it gives it up itself, in whatever order the former holders give up what they no
longer have.
-/

namespace Library

universe u

/-- A change of a place. -/
inductive Tenure (γ : Type u) where
  | takes (token : γ)
  | leaves (token : γ)
deriving DecidableEq

namespace Tenure

variable {γ : Type u}

/-- The token a change puts in place, if it puts one. -/
def token? : Tenure γ → Option γ
  | .takes token => some token
  | .leaves _ => none

/-- The tokens put in place, in order. -/
def taken (changes : List (Tenure γ)) : List γ := changes.filterMap token?

/-- The token that was put in place last. -/
def latest (changes : List (Tenure γ)) : Option γ := (taken changes).getLast?

/-- Changes whose tokens are new when they are put in place, and given up only by
those who took the place with them. -/
inductive Orderly : List (Tenure γ) → Prop
  | nil : Orderly []
  | takes {changes : List (Tenure γ)} (orderly : Orderly changes) {token : γ}
      (fresh : token ∉ taken changes) : Orderly (changes ++ [.takes token])
  | leaves {changes : List (Tenure γ)} (orderly : Orderly changes) {token : γ}
      (before : token ∈ taken changes) : Orderly (changes ++ [.leaves token])

section Taken

variable (changes : List (Tenure γ)) (token : γ)

/-- Nobody has taken anything before the first change. -/
@[simp]
theorem taken_nil : taken ([] : List (Tenure γ)) = [] := rfl

/-- The tokens taken over two stretches are those of the first and then of the second. -/
@[simp]
theorem taken_append (later : List (Tenure γ)) :
    taken (changes ++ later) = taken changes ++ taken later :=
  List.filterMap_append

/-- Taking the tenure adds its token. -/
@[simp]
theorem taken_takes (later : List (Tenure γ)) : taken (.takes token :: later) = token :: taken later :=
  rfl

/-- Leaving the tenure adds no token. -/
@[simp]
theorem taken_leaves (later : List (Tenure γ)) : taken (.leaves token :: later) = taken later := rfl

/-- A token was taken exactly where a change takes it. -/
theorem mem_taken : token ∈ taken changes ↔ .takes token ∈ changes := by
  unfold taken
  rw [List.mem_filterMap]
  constructor
  · rintro ⟨change, member, gives⟩
    cases change with
    | takes other => exact Option.some.inj gives ▸ member
    | leaves other => simp [token?] at gives
  · exact fun member => ⟨_, member, rfl⟩

/-- The latest token is the one just taken. -/
theorem latest_takes : latest (changes ++ [.takes token]) = some token := by
  simp [latest]

/-- Leaving leaves the latest token as it is. -/
theorem latest_leaves : latest (changes ++ [.leaves token]) = latest changes := by
  simp [latest]

end Taken

namespace Orderly

variable {changes : List (Tenure γ)} {token other : γ}

/-- A token is put in place once. -/
theorem nodup (orderly : Orderly changes) : (taken changes).Nodup := by
  induction orderly with
  | nil => exact .nil
  | takes _ fresh inductionHypothesis =>
    rw [taken_append, taken_takes, taken_nil]
    refine List.nodup_append.mpr ⟨inductionHypothesis, List.nodup_singleton _, ?_⟩
    intro other member single last same
    exact fresh (List.mem_singleton.mp last ▸ same ▸ member)
  | leaves _ _ inductionHypothesis => simpa using inductionHypothesis

/-- A token that was given up was put in place. -/
theorem left (orderly : Orderly changes) (gone : .leaves token ∈ changes) :
    token ∈ taken changes := by
  induction orderly with
  | nil => simp at gone
  | takes _ _ inductionHypothesis =>
    simp only [List.mem_append, List.mem_singleton, reduceCtorEq, or_false] at gone
    simp [inductionHypothesis gone]
  | leaves _ before inductionHypothesis =>
    simp only [List.mem_append, List.mem_singleton, leaves.injEq] at gone
    rcases gone with earlier | rfl
    · simp [inductionHypothesis earlier]
    · simp [before]

end Orderly

variable [DecidableEq γ]

/-- What a change does to the place. -/
def apply (held : Option γ) : Tenure γ → Option γ
  | .takes token => some token
  | .leaves token => if held = some token then none else held

/-- The token in a place that was empty before the changes. -/
def held (changes : List (Tenure γ)) : Option γ := changes.foldl apply none

/-- The tenure after one more change is that change applied to the tenure before. -/
theorem held_append_one (changes : List (Tenure γ)) (change : Tenure γ) :
    held (changes ++ [change]) = apply (held changes) change := by
  simp [held]

namespace Orderly

variable {changes : List (Tenure γ)} {token other : γ}

/-- The place holds the token that was put there last, until that one is given
up. -/
theorem held_eq (orderly : Orderly changes) :
    held changes = (latest changes).filter fun token => .leaves token ∉ changes := by
  induction orderly with
  | nil => rfl
  | @takes changes orderly token fresh inductionHypothesis =>
    have present : .leaves token ∉ changes := fun gone => fresh (orderly.left gone)
    rw [held_append_one, latest_takes]
    simp [apply, Option.filter, present]
  | @leaves changes orderly token before inductionHypothesis =>
    rw [held_append_one, latest_leaves, inductionHypothesis]
    cases last : latest changes with
    | none => simp [apply]
    | some newest =>
      by_cases gone : .leaves newest ∈ changes
      · simp [apply, Option.filter, gone]
      · by_cases own : newest = token
        · simp [apply, Option.filter, own]
        · simp [apply, Option.filter, gone, own]

/-- Giving up a token leaves any token in place that was put there after it. -/
theorem keeps_later {earlier later : List (Tenure γ)}
    (orderly : Orderly (earlier ++ .takes token :: later)) (follows : other ∈ taken later) :
    apply (some other) (.leaves token) = some other := by
  have distinct := orderly.nodup
  rw [taken_append, taken_takes] at distinct
  have apart : other ≠ token := by
    rintro rfl
    exact (List.nodup_cons.mp (List.nodup_append.mp distinct).2.1).1 follows
  simp [apply, apart]

end Orderly

end Tenure

end Library

import Seameet.Library.Table

/-!
# Mailboxes

Messages are posted to named mailboxes. A mailbox hands its messages out in the
order they were posted, and a closed one takes nothing more.

A mark follows one fact about a reader through the messages that set it and
those that clear it. The tally of a list of messages is what the fact is once
they are all taken. If taking one message never shows more than its mark, what a
reader can still come to show is bounded by the tally of what waits, and that by
the tally of everything ever posted to it.
-/

namespace Library

universe u v
variable {κ : Type u} {α : Type v} [DecidableEq κ]

/-- The messages posted to a mailbox, among all that were posted. -/
def addressed (key : κ) (posted : List (κ × α)) : List α :=
  (posted.filter fun letter => letter.1 = key).map Prod.snd

/-- The waiting messages of each mailbox. -/
abbrev Mailboxes (κ : Type u) (α : Type v) [DecidableEq κ] := Table κ (List α)

section Addressed

variable (key : κ)

/-- Nothing is addressed to anybody in an empty list. -/
@[simp]
theorem addressed_nil : addressed key ([] : List (κ × α)) = [] := rfl

/-- What two stretches address to a key is what the first does and then the second. -/
@[simp]
theorem addressed_append (first second : List (κ × α)) :
    addressed key (first ++ second) = addressed key first ++ addressed key second := by
  simp [addressed]

/-- What a list addresses to a key starts with its first letter, if that goes there. -/
theorem addressed_cons (letter : κ × α) (rest : List (κ × α)) :
    addressed key (letter :: rest) =
      (if letter.1 = key then [letter.2] else []) ++ addressed key rest := by
  by_cases here : letter.1 = key <;> simp [addressed, here]

/-- A message is addressed to a mailbox when it was posted there. -/
theorem mem_addressed (message : α) (posted : List (κ × α)) :
    message ∈ addressed key posted ↔ (key, message) ∈ posted := by
  simp only [addressed, List.mem_map, List.mem_filter, decide_eq_true_eq]
  constructor
  · rintro ⟨letter, ⟨present, rfl⟩, rfl⟩
    exact present
  · intro present
    exact ⟨(key, message), ⟨present, rfl⟩, rfl⟩

end Addressed

namespace Mailboxes

/-- What waits in a mailbox. -/
def waiting (boxes : Mailboxes κ α) (key : κ) : List α := (boxes.lookup key).getD []

/-- Post one message; a closed mailbox refuses it. -/
def post (closed : List κ) (boxes : Mailboxes κ α) (letter : κ × α) : Mailboxes κ α :=
  if letter.1 ∈ closed then boxes
  else boxes.insert letter.1 (boxes.waiting letter.1 ++ [letter.2])

/-- Post messages in order. -/
def postAll (closed : List κ) (boxes : Mailboxes κ α) (letters : List (κ × α)) : Mailboxes κ α :=
  letters.foldl (post closed) boxes

variable (boxes : Mailboxes κ α) (closed : List κ) (key tested : κ)

/-- Inserting a box changes what waits in that box alone. -/
theorem waiting_insert (messages : List α) :
    waiting (boxes.insert key messages) tested =
      if tested = key then messages else boxes.waiting tested := by
  unfold waiting
  rw [Table.lookup_insert_eq]
  split <;> rfl

/-- Erasing a box leaves nothing waiting in it. -/
theorem waiting_erase :
    waiting (boxes.erase key) tested = if tested = key then [] else boxes.waiting tested := by
  unfold waiting
  rw [Table.lookup_erase_eq]
  split <;> rfl

/-- A posted letter waits at the end of its box, unless the box is closed. -/
theorem waiting_post (letter : κ × α) :
    (boxes.post closed letter).waiting tested =
      boxes.waiting tested ++ if tested ∈ closed then [] else addressed tested [letter] := by
  unfold post
  by_cases shut : letter.1 ∈ closed
  · rw [if_pos shut]
    by_cases here : letter.1 = tested
    · subst here
      simp [shut]
    · simp [addressed_cons, here]
  · rw [if_neg shut, waiting_insert]
    by_cases here : tested = letter.1
    · subst here
      simp [shut, addressed_cons]
    · simp [here, addressed_cons, Ne.symm here]

/-- Posting appends to each open mailbox what is addressed to it. -/
theorem waiting_postAll (letters : List (κ × α)) :
    (boxes.postAll closed letters).waiting tested =
      boxes.waiting tested ++ if tested ∈ closed then [] else addressed tested letters := by
  induction letters generalizing boxes with
  | nil => simp [postAll]
  | cons letter rest inductionHypothesis =>
    have later := inductionHypothesis (boxes.post closed letter)
    rw [waiting_post] at later
    by_cases shut : tested ∈ closed
    · simpa [postAll, shut] using later
    · simpa [postAll, shut, addressed_cons] using later

end Mailboxes

section Tally

variable (mark : Bool → α → Bool)

/-- A fact once the listed messages are taken. -/
def tally (shown : Bool) (messages : List α) : Bool := messages.foldl mark shown

/-- A message that shows a fact nobody showed before shows it in any case. -/
def Cumulative : Prop := ∀ message, mark false message = true → mark true message = true

/-- Nothing shown is nothing changed. -/
@[simp]
theorem tally_nil (shown : Bool) : tally mark shown [] = shown := rfl

/-- The tally of a list is the tally of the rest after the first message. -/
@[simp]
theorem tally_cons (shown : Bool) (message : α) (rest : List α) :
    tally mark shown (message :: rest) = tally mark (mark shown message) rest := rfl

/-- The tally of two stretches is the tally of the second from that of the first. -/
theorem tally_append (shown : Bool) (first second : List α) :
    tally mark shown (first ++ second) = tally mark (tally mark shown first) second :=
  List.foldl_append

variable {mark}

/-- The tally grows with the fact it starts from. -/
theorem Cumulative.tally_mono (cumulative : Cumulative mark) {less more : Bool}
    (grows : less = true → more = true) (messages : List α)
    (shown : tally mark less messages = true) : tally mark more messages = true := by
  induction messages generalizing less more with
  | nil => exact grows shown
  | cons message rest inductionHypothesis =>
    refine inductionHypothesis ?_ shown
    intro marked
    cases less with
    | true => rwa [grows rfl]
    | false =>
      cases more with
      | false => exact marked
      | true => exact cumulative message marked

/-- Messages none of which sets the fact do not bring it about. -/
theorem tally_unset (messages : List α) (unset : ∀ message ∈ messages, mark false message = false) :
    tally mark false messages = false := by
  induction messages with
  | nil => rfl
  | cons message rest inductionHypothesis =>
    rw [tally_cons, unset message List.mem_cons_self]
    exact inductionHypothesis fun later member => unset later (List.mem_cons_of_mem _ member)

/-- Messages none of which clears the fact keep it. -/
theorem tally_keeps (messages : List α)
    (kept : ∀ message ∈ messages, mark true message = true) : tally mark true messages = true := by
  induction messages with
  | nil => rfl
  | cons message rest inductionHypothesis =>
    rw [tally_cons, kept message List.mem_cons_self]
    exact inductionHypothesis fun later member => kept later (List.mem_cons_of_mem _ member)

end Tally

end Library

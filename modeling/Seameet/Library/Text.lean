import Mathlib.Data.List.DropRight

/-!
# Texts in lines

A text is a list of characters. Its lines end at newlines; a carriage return right
before a newline belongs to the ending, and any other one to its line. The last line
need not be ended. Writing lines with an ending each, and reading them back, gives the
same lines, as long as none of them holds a newline.
-/

namespace Library

/-- A text, character by character. -/
abbrev Text := List Char

namespace Text

/-- Whether a character counts as white space. -/
def isWhiteSpace (char : Char) : Bool :=
  let code := char.toNat
  (9 ≤ code && code ≤ 13) || code = 0x20 || code = 0x85 || code = 0xA0 || code = 0x1680 ||
    (0x2000 ≤ code && code ≤ 0x200A) || code = 0x2028 || code = 0x2029 || code = 0x202F ||
    code = 0x205F || code = 0x3000

/-- The text without the white space around it. -/
def trim (text : Text) : Text := (text.dropWhile isWhiteSpace).rdropWhile isWhiteSpace

/-- The words of a text, as white space separates them. -/
def words (text : Text) : List Text := (text.splitOnP isWhiteSpace).filter (· ≠ [])

/-- What follows a beginning, if the text begins so. -/
def stripBeginning (beginning text : Text) : Option Text :=
  if beginning.isPrefixOf text then some (text.drop beginning.length) else none

/-- A line without the carriage return of its ending. -/
def chomp (line : Text) : Text := if line.getLast? = some '\r' then line.dropLast else line

/-- The lines of a text, after characters that are already read of the first one. -/
def linesFrom (pending : Text) : Text → List Text
  | [] => if pending = [] then [] else [pending]
  | char :: rest =>
      if char = '\n' then chomp pending :: linesFrom [] rest
      else linesFrom (pending ++ [char]) rest

/-- The lines of a text. -/
def lines (text : Text) : List Text := linesFrom [] text

/-- Lines with their endings. -/
def unlines (lines : List Text) : Text := lines.flatMap (· ++ ['\r', '\n'])

/-- Characters that end no line are read into it. -/
theorem linesFrom_append (pending more rest : Text) (unended : '\n' ∉ more) :
    linesFrom pending (more ++ rest) = linesFrom (pending ++ more) rest := by
  induction more generalizing pending with
  | nil => simp
  | cons char more inductionHypothesis =>
    have apart : char ≠ '\n' := fun same => unended (same ▸ List.mem_cons_self)
    have later := inductionHypothesis (pending ++ [char])
      fun member => unended (List.mem_cons_of_mem char member)
    rw [List.cons_append, linesFrom, if_neg apart, later, List.append_assoc, List.singleton_append]

/-- The carriage return of an ending is dropped, and only that one. -/
theorem chomp_ended (line : Text) : chomp (line ++ ['\r']) = line := by
  simp [chomp]

/-- Lines written are read back. -/
theorem lines_unlines (written : List Text) (unended : ∀ line ∈ written, '\n' ∉ line) :
    lines (unlines written) = written := by
  induction written with
  | nil => rfl
  | cons line rest inductionHypothesis =>
    have first : '\n' ∉ line ++ ['\r'] := by
      simpa using unended line List.mem_cons_self
    have later := inductionHypothesis fun other member => unended other (List.mem_cons_of_mem line member)
    have ending : unlines (line :: rest) = (line ++ ['\r']) ++ '\n' :: unlines rest := by
      simp [unlines]
    rw [lines, ending, linesFrom_append [] _ _ first, List.nil_append, linesFrom, if_pos rfl,
      chomp_ended]
    exact congrArg (line :: ·) later

/-- No line of a text holds a newline. -/
theorem newline_notMem_linesFrom (pending text : Text) (unended : '\n' ∉ pending) :
    ∀ line ∈ linesFrom pending text, '\n' ∉ line := by
  induction text generalizing pending with
  | nil =>
    intro line member
    rw [linesFrom] at member
    split at member
    · cases member
    · rw [List.mem_singleton.mp member]
      exact unended
  | cons char rest inductionHypothesis =>
    intro line member
    rw [linesFrom] at member
    split at member
    · rcases List.mem_cons.mp member with rfl | later
      · intro inside
        unfold chomp at inside
        split at inside
        · exact unended ((List.dropLast_sublist pending).subset inside)
        · exact unended inside
      · exact inductionHypothesis [] List.not_mem_nil line later
    · rename_i apart
      refine inductionHypothesis (pending ++ [char]) ?_ line member
      intro inside
      rcases List.mem_append.mp inside with old | new
      · exact unended old
      · exact apart (List.mem_singleton.mp new).symm

/-- A line holds no line break. -/
theorem newline_notMem_lines (text : Text) : ∀ line ∈ lines text, '\n' ∉ line :=
  newline_notMem_linesFrom [] text List.not_mem_nil

end Text

end Library

import Placeholder.Calendar.Strftime

/-! Date patterns such as `YYYY-MM-DD [at] HH:mm` are sequences of tokens and literal text. -/

namespace Placeholder.Calendar.Pattern

/-- A part of a pattern. -/
inductive Segment where
  /-- Text that stands for itself. -/
  | literal (text : List Char)
  /-- A token that stands for a field. -/
  | field (field : Field)
deriving DecidableEq, Repr

/-- The field whose token opens a text, with the text after it. -/
def token? (text : List Char) : Option (Field × List Char) :=
  Field.table.findSome? fun (field, token, _) =>
    (Text.afterOpening token.toList text).map (field, ·)

/-- What follows a token is shorter than the text that it opens. -/
theorem token?_length {text rest : List Char} {field : Field}
    (found : token? text = some (field, rest)) : rest.length < text.length := by
  -- The table entry that fits has its token taken off the front, and no token is empty.
  obtain ⟨⟨_, token, _⟩, member, fits⟩ := List.exists_of_findSome?_eq_some found
  obtain ⟨after, opened, same⟩ := Option.map_eq_some_iff.mp fits
  have whole := Text.afterOpening_length opened
  have filled : ∀ entry ∈ Field.table, 0 < entry.2.1.toList.length := by decide
  have positive : 0 < token.toList.length := filled _ member
  simp only [Prod.mk.injEq] at same
  rw [same.2] at whole
  omega

/-- The first segment of a pattern that is not empty, with the rest of the pattern. -/
def firstSegment (c : Char) (rest : List Char) : Segment × List Char :=
  -- A bracket without a partner is no bracket.
  match if c = '[' then Text.cutFirst ']' rest else none with
  | some (inside, after) => (.literal inside, after)
  | none =>
    match token? (c :: rest) with
    | some (part, after) => (.field part, after)
    | none => (.literal [c], rest)

/-- What follows the first segment is no longer than what follows the first character. -/
theorem firstSegment_length (c : Char) (rest : List Char) :
    (firstSegment c rest).2.length ≤ rest.length := by
  -- A bracketed text, a token and a lone character all take at least the first character.
  unfold firstSegment
  split
  · rename_i inside after found
    split at found
    · have := Text.cutFirst_length found
      show after.length ≤ rest.length
      omega
    · simp at found
  · split
    · rename_i field after found
      have := token?_length found
      simp only [List.length_cons] at this
      show after.length ≤ rest.length
      omega
    · exact Nat.le_refl _

/-- The segments of a pattern, read from the left. -/
def segments (pattern : List Char) : List Segment :=
  match pattern with
  | [] => []
  | c :: rest =>
    have := firstSegment_length c rest
    (firstSegment c rest).1 :: segments (firstSegment c rest).2
termination_by pattern.length
decreasing_by simp only [List.length_cons]; omega

/-- Literal text in a `%` format, where a percent sign is doubled. -/
def doubled (text : List Char) : List Char :=
  text.flatMap fun c => if c = '%' then ['%', '%'] else [c]

/-- A segment in a `%` format. -/
def Segment.toStrftime : Segment → List Char
  | .literal text => doubled text
  | .field part =>
    '%' :: ((Field.table.lookup part).map fun (_, specifier) => specifier.toList).getD []

/-- The `%` format that means the same as a pattern. -/
def toStrftime (pattern : String) : String :=
  String.ofList ((segments pattern.toList).flatMap Segment.toStrftime)

/-- A clock time in a pattern, which itself is the answer should its format be broken. -/
def format (pattern : String) (time : ClockTime) : String :=
  match Strftime.format? (toStrftime pattern).toList time with
  | some text => String.ofList text
  | none => pattern

end Placeholder.Calendar.Pattern

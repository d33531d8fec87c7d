/-! Texts are cut at separator characters. -/

namespace Placeholder.Text

/-- The pieces between separators, one more of them than there are separators. -/
def pieces (separator : Char) : List Char → List (List Char)
  | [] => [[]]
  | c :: rest =>
    if c = separator then [] :: pieces separator rest
    else
      match pieces separator rest with
      -- Every text has at least one piece, so the first branch is never taken.
      | [] => [[c]]
      | piece :: others => (c :: piece) :: others

/-- The text before and after the first separator, when there is one. -/
def cutFirst (separator : Char) : List Char → Option (List Char × List Char)
  | [] => none
  | c :: rest =>
    if c = separator then some ([], rest)
    else (cutFirst separator rest).map fun (before, after) => (c :: before, after)

/-- A cut leaves out the separator and nothing else. -/
theorem cutFirst_length {separator : Char} {text before after : List Char}
    (cut : cutFirst separator text = some (before, after)) :
    before.length + after.length + 1 = text.length := by
  -- The walk keeps every character in front of the separator it stops at.
  induction text generalizing before with
  | nil => simp [cutFirst] at cut
  | cons c rest ih =>
    simp only [cutFirst] at cut
    split at cut
    · simp only [Option.some.injEq, Prod.mk.injEq] at cut
      obtain ⟨rfl, rfl⟩ := cut
      simp
    · obtain ⟨⟨inner, outer⟩, found, same⟩ := Option.map_eq_some_iff.mp cut
      simp only [Prod.mk.injEq] at same
      obtain ⟨rfl, rfl⟩ := same
      have := ih found
      simp only [List.length_cons]
      omega

/-- The text before the last separator, when there is one. -/
def beforeLast (separator : Char) : List Char → Option (List Char)
  | [] => none
  | c :: rest =>
    match beforeLast separator rest with
    | some before => some (c :: before)
    | none => if c = separator then some [] else none

/-- The text after a given opening, when the text has it. -/
def afterOpening : List Char → List Char → Option (List Char)
  | [], text => some text
  | _ :: _, [] => none
  | expected :: opening, c :: rest => if c = expected then afterOpening opening rest else none

/-- An opening that is found is followed by no more than the whole text less the opening. -/
theorem afterOpening_length {opening text rest : List Char}
    (found : afterOpening opening text = some rest) :
    rest.length + opening.length = text.length := by
  -- Each character of the opening is matched by one character of the text.
  induction opening generalizing text with
  | nil => simp_all [afterOpening]
  | cons expected opening ih =>
    cases text with
    | nil => simp [afterOpening] at found
    | cons c text =>
      simp only [afterOpening] at found
      split at found
      · have := ih found
        simp only [List.length_cons]
        omega
      · simp at found

/-- The lines that a text ends with line feeds, with a last unended line kept when not empty. -/
def lines (text : List Char) : List (List Char) :=
  let all := pieces '\n' text
  let ended := all.dropLast.map fun line =>
    -- A carriage return belongs to the line feed after it.
    if line.getLast? = some '\r' then line.dropLast else line
  match all.getLast? with
  | some [] | none => ended
  | some open_ => ended ++ [open_]

end Placeholder.Text

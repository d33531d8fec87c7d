import Placeholder.Yaml.Cursor

/-! Gaps are the blanks and line breaks inside a scalar, which are folded into less. -/

namespace Placeholder.Yaml

/-- The blanks up to the first line break, or that break and those after it. -/
structure Gap where
  blanks : List Char := []
  /-- Whether the gap goes over the end of a line. -/
  broken : Bool := false
  firstBreak : List Char := []
  otherBreaks : List Char := []

namespace Gap

/-- What a gap contributes to the scalar: its blanks, or one space for a lone line feed. -/
def text (gap : Gap) : List Char :=
  if !gap.broken then gap.blanks
  else if gap.firstBreak.head? == some '\n' then
    if gap.otherBreaks.isEmpty then [' '] else gap.otherBreaks
  else gap.firstBreak ++ gap.otherBreaks

/-- A blank after a line break is indentation and counts for nothing. -/
def addBlank (gap : Gap) (c : Char) : Gap :=
  if gap.broken then gap else { gap with blanks := gap.blanks ++ [c] }

/-- The first break of a gap voids the blanks before it. -/
def addBreak (gap : Gap) (text : List Char) : Gap :=
  if gap.broken then { gap with otherBreaks := gap.otherBreaks ++ text }
  else { broken := true, firstBreak := text }

/-- The gap at a cursor, refused where a tab stands in for indentation. -/
def read? (indent : Nat) : Nat → Gap → Cursor → Option (Gap × Cursor)
  | 0, _, _ => none
  | budget + 1, gap, cursor =>
    match cursor.peek with
    | none => some (gap, cursor)
    | some c =>
      if isBlank c then
        if gap.broken && cursor.column < indent && c == '\t' then none
        else read? indent budget (gap.addBlank c) (cursor.advance 1)
      else if isBreak c then
        let (text, next) := cursor.takeBreak
        read? indent budget (gap.addBreak text) next
      else some (gap, cursor)

end Gap

end Placeholder.Yaml

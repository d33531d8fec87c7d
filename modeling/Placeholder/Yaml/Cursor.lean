import Placeholder.Yaml.Character

/-! A cursor is a position in a text, with the line and the column that it has there. -/

namespace Placeholder.Yaml

/-- The text that is left, with the count of characters, lines and columns passed. -/
structure Cursor where
  rest : List Char
  index : Nat := 0
  line : Nat := 0
  column : Nat := 0

namespace Cursor

/-- The character at the cursor. -/
def peek (cursor : Cursor) : Option Char :=
  cursor.rest.head?

/-- The character some places after the cursor. -/
def peekAt (cursor : Cursor) (places : Nat) : Option Char :=
  cursor.rest[places]?

/-- Whether a given character is at the cursor. -/
def sees (cursor : Cursor) (c : Char) : Bool :=
  cursor.peek == some c

/-- Whether the character at the cursor is of some class. -/
def seesAny (cursor : Cursor) (isMember : Char → Bool) : Bool :=
  cursor.peek.any isMember

/-- The cursor some characters further on the same line. -/
def advance (cursor : Cursor) (count : Nat) : Cursor where
  rest := cursor.rest.drop count
  index := cursor.index + count
  line := cursor.line
  column := cursor.column + count

/-- The longest run of characters of some class, and the cursor after it. -/
def takeWhile (cursor : Cursor) (isMember : Char → Bool) : List Char × Cursor :=
  let run := cursor.rest.takeWhile isMember
  (run, cursor.advance run.length)

/-- The cursor after the longest run of characters of some class. -/
def skipWhile (cursor : Cursor) (isMember : Char → Bool) : Cursor :=
  (cursor.takeWhile isMember).2

/-- The text of the line break at the cursor, and the start of the next line. -/
def takeBreak (cursor : Cursor) : List Char × Cursor :=
  let next (width : Nat) : Cursor :=
    { rest := cursor.rest.drop width, index := cursor.index + width, line := cursor.line + 1 }
  match cursor.rest with
  | '\r' :: '\n' :: _ => (['\n'], next 2)
  | c :: _ =>
    -- The separators of lines and paragraphs stay themselves, and all other breaks are one.
    if c = '\u2028' ∨ c = '\u2029' then ([c], next 1)
    else if isBreak c then (['\n'], next 1)
    else ([], cursor)
  | [] => ([], cursor)

/-- Three hyphens or three points alone at the start of a line delimit documents. -/
def seesDelimiter (cursor : Cursor) (c : Char) : Bool :=
  cursor.column == 0 && cursor.rest.take 3 == [c, c, c] && endsToken (cursor.peekAt 3)

/-- Whether a document starts or ends at the cursor. -/
def seesDocument (cursor : Cursor) : Bool :=
  cursor.seesDelimiter '-' || cursor.seesDelimiter '.'

/-- The cursor after a comment, if it is at one. -/
def skipComment (cursor : Cursor) : Cursor :=
  if cursor.sees '#' then cursor.skipWhile (!isBreak ·) else cursor

/-- The cursor after a line of which only blanks and a comment are left. -/
def skipRestOfLine? (cursor : Cursor) : Option Cursor :=
  let cursor := (cursor.skipWhile isBlank).skipComment
  match cursor.peek with
  | none => some cursor
  | some c => if isBreak c then some cursor.takeBreak.2 else none

end Cursor

end Placeholder.Yaml

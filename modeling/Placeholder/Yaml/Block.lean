import Placeholder.Text.Digits
import Placeholder.Yaml.Cursor

/-! Block scalars hold the lines that are indented under them. -/

namespace Placeholder.Yaml.Block

/-- What is done with the line breaks at the end of a block scalar. -/
inductive Chomping where
  | strip
  | clip
  | keep
deriving DecidableEq

/-- The chomping mark at a cursor. -/
def chomping? (cursor : Cursor) : Option (Chomping × Cursor) :=
  match cursor.peek with
  | some '+' => some (.keep, cursor.advance 1)
  | some '-' => some (.strip, cursor.advance 1)
  | _ => none

/-- The indentation mark at a cursor, which is not zero. -/
def increment? (cursor : Cursor) : Option (Option Nat × Cursor) :=
  match cursor.peek with
  | some c =>
    if c = '0' then none
    else if c.isDigit then some (some (Text.digitValue c), cursor.advance 1)
    else some (none, cursor)
  | none => some (none, cursor)

/-- The chomping and indentation marks of a header, in either order. -/
def header? (cursor : Cursor) : Option (Chomping × Option Nat × Cursor) :=
  match chomping? cursor with
  | some (chomping, cursor) => (increment? cursor).map (chomping, ·)
  | none => do
    let (increment, cursor) ← increment? cursor
    if increment.isSome then
      match chomping? cursor with
      | some (chomping, cursor) => return (chomping, increment, cursor)
      | none => return (.clip, increment, cursor)
    else return (.clip, none, cursor)

/-- Indentation and empty lines, with the breaks of the lines and the widest indentation. -/
def emptyLines? (indent : Option Nat) :
    Nat → List Char → Nat → Cursor → Option (List Char × Nat × Cursor)
  | 0, _, _, _ => none
  | budget + 1, breaks, widest, cursor =>
    let spaces := (cursor.takeWhile (· == ' ')).1.length
    let width :=
      match indent with
      | none => spaces
      | some indent => Nat.min spaces (indent - cursor.column)
    let cursor := cursor.advance width
    let widest := Nat.max widest cursor.column
    let indented := indent.any (· ≤ cursor.column)
    -- A tab cannot stand in for indentation.
    if !indented && cursor.sees '\t' then none
    else if cursor.seesAny isBreak then
      let (text, next) := cursor.takeBreak
      emptyLines? indent budget (breaks ++ text) widest next
    else some (breaks, widest, cursor)

/-- The lines of a block scalar, after the break of the line before and the empty lines since. -/
def lines? (literal : Bool) (indent : Nat) :
    Nat → List Char → List Char → Bool → Cursor →
      Option (List Char × List Char × List Char × Cursor)
  | 0, _, _, _, _ => none
  | budget + 1, lineBreak, emptyBreaks, afterBlank, cursor =>
    if cursor.column ≠ indent ∨ cursor.rest.isEmpty then
      some ([], lineBreak, emptyBreaks, cursor)
    else do
      let startsBlank := cursor.seesAny isBlank
      -- Folding joins two lines by a space unless one of them starts with a blank.
      let folds := !literal && lineBreak.head? == some '\n' && !afterBlank && !startsBlank
      let joint :=
        if folds then if emptyBreaks.isEmpty then [' '] else emptyBreaks
        else lineBreak ++ emptyBreaks
      let (line, cursor) := cursor.takeWhile (!isBreak ·)
      let (nextBreak, cursor) := cursor.takeBreak
      let (nextEmpty, _, cursor) ←
        emptyLines? (some indent) (cursor.rest.length + 1) [] 0 cursor
      let (more, lastBreak, lastEmpty, cursor) ←
        lines? literal indent budget nextBreak nextEmpty startsBlank cursor
      return (joint ++ line ++ more, lastBreak, lastEmpty, cursor)

/-- The block scalar at a cursor, inside a block of some indentation. -/
def read? (parent : Option Nat) (cursor : Cursor) : Option (String × Cursor) := do
  let literal := cursor.sees '|'
  let (chomping, increment, cursor) ← header? (cursor.advance 1)
  let cursor ← cursor.skipRestOfLine?
  let given := increment.map (parent.getD 0 + ·)
  let (emptyBreaks, widest, cursor) ← emptyLines? given (cursor.rest.length + 1) [] 0 cursor
  -- Without a mark the first line that is not empty shows the indentation.
  let least := Nat.max 1 (match parent with | some column => column + 1 | none => 0)
  let indent := given.getD (Nat.max widest least)
  let (text, lastBreak, lastEmpty, cursor) ←
    lines? literal indent (cursor.rest.length + 1) [] emptyBreaks false cursor
  let tail :=
    match chomping with
    | .strip => []
    | .clip => lastBreak
    | .keep => lastBreak ++ lastEmpty
  return (String.ofList (text ++ tail), cursor)

end Placeholder.Yaml.Block

import Placeholder.Decimal.Spelling
import Placeholder.Yaml.Outline
import Placeholder.Yaml.Scalar

/-! Data are written in block style, two columns to a level. -/

namespace Placeholder.Yaml

/-- The text written so far, with what the next mark has to know about its end. -/
structure Pen where
  text : String := ""
  column : Nat := 0
  /-- Whether the text ends with space enough for a mark. -/
  spaced : Bool := true
  /-- Whether only indentation and marks of entries stand on the line. -/
  indenting : Bool := true

namespace Pen

/-- Characters of one line. -/
def put (pen : Pen) (text : List Char) : Pen :=
  { pen with text := pen.text ++ String.ofList text, column := pen.column + text.length }

/-- The end of a line. -/
def newline (pen : Pen) (mark : Char := '\n') : Pen :=
  { pen with text := pen.text.push mark, column := 0 }

/-- A space, unless there is enough already. -/
def space (pen : Pen) : Pen :=
  if pen.spaced then pen else pen.put [' ']

/-- A mark, which keeps the line open for entries or not. -/
def mark (pen : Pen) (text : List Char) (needsSpace opensEntry : Bool) : Pen :=
  let pen := (if needsSpace then pen.space else pen).put text
  { pen with spaced := false, indenting := pen.indenting && opensEntry }

/-- Text that leaves neither space nor indentation behind it. -/
def word (pen : Pen) (text : List Char) : Pen :=
  { pen.put text with spaced := false, indenting := false }

/-- The column of an indentation, on a new line if this one has gone too far. -/
def indent (pen : Pen) (column : Nat) : Pen :=
  let full := !pen.indenting || column < pen.column || (pen.column == column && !pen.spaced)
  let pen := if full then pen.newline else pen
  { pen.put (List.replicate (column - pen.column) ' ') with spaced := true, indenting := true }

end Pen

/-- The ways in which a scalar asks to be written. -/
inductive Wish where
  | plain
  | single
  | literal
deriving DecidableEq

/-- A string asks for quotes when it would be read as something else without them. -/
def wishOf (text : String) : Wish :=
  let chars := text.toList
  if chars.contains '\n' then .literal
  else if text.isEmpty || Scalar.isNull text || (Scalar.bool? text).isSome ||
      (Scalar.integer? chars).isSome || Scalar.isPadded chars || (Scalar.float? text).isSome then
    .single
  else .plain

/-- The text of a scalar with the wish for its style. -/
def Datum.scalar? : Datum → Option (String × Wish)
  | .null => some ("null", .plain)
  | .bool value => some (if value then "true" else "false", .plain)
  | .int value => some (toString value, .plain)
  | .float value => some (Spelling.yaml.text value, .plain)
  | .string value => some (value, wishOf value)
  | _ => none

/-- The upper-case hexadecimal digits of a number in a given width. -/
def upperHex (width value : Nat) : List Char :=
  ((Nat.toDigits 16 value).map Char.toUpper).leftpad width '0'

/-- Escapes of a single letter in double quotes. -/
def escapeLetters : List (Char × Char) :=
  [('\x00', '0'), ('\x07', 'a'), ('\x08', 'b'), ('\t', 't'), ('\n', 'n'), ('\x0b', 'v'),
    ('\x0c', 'f'), ('\r', 'r'), ('\x1b', 'e'), ('"', '"'), ('\\', '\\'), ('\u0085', 'N'),
    ('\u2028', 'L'), ('\u2029', 'P')]

/-- A character in double quotes. -/
def doubleQuoted (c : Char) : List Char :=
  match escapeLetters.lookup c with
  | some letter => ['\\', letter]
  | none =>
    if isPrintable c then [c]
    else if c.toNat ≤ 0xFF then '\\' :: 'x' :: upperHex 2 c.toNat
    else if c.toNat ≤ 0xFFFF then '\\' :: 'u' :: upperHex 4 c.toNat
    else '\\' :: 'U' :: upperHex 8 c.toNat

/-- Text in single quotes, whose lines are indented. -/
def Pen.singleQuoted (column : Nat) : Bool → List Char → Pen → Pen
  | broken, [], pen => if broken then pen.indent column else pen
  | broken, c :: rest, pen =>
    if isBreak c then
      Pen.singleQuoted column true rest { pen.newline c with indenting := true }
    else
      let pen := if broken && c != ' ' then pen.indent column else pen
      let pen := pen.put (if c = '\'' then ['\'', '\''] else [c])
      if c = ' ' then Pen.singleQuoted column broken rest pen
      else Pen.singleQuoted column false rest { pen with indenting := false }

/-- The lines of a literal scalar. -/
def Pen.literalLines (column : Nat) : Bool → List Char → Pen → Pen
  | _, [], pen => pen
  | broken, c :: rest, pen =>
    if isBreak c then
      Pen.literalLines column true rest { pen.newline c with indenting := true }
    else
      let pen := if broken then pen.indent column else pen
      Pen.literalLines column false rest { pen.put [c] with indenting := false }

/-- The marks after the bar of a literal scalar, for its indentation and its last line breaks. -/
def literalHints (text : List Char) : List Char :=
  let indentation := if text.head?.any (fun c => c == ' ' || isBreak c) then ['2'] else []
  let chomping :=
    match text.reverse with
    | last :: rest =>
      if !isBreak last then ['-']
      else
        match rest with
        | [] => ['+']
        | before :: _ => if isBreak before then ['+'] else []
    | [] => ['-']
  indentation ++ chomping

/-- A scalar in the style that it asks for, or the next one that can hold it. -/
def Pen.scalar (column : Nat) (simpleKey : Bool) (text : String) (wish : Wish) (pen : Pen) :
    Pen :=
  let chars := text.toList
  let outline := Outline.ofText chars
  if chars.isEmpty then (pen.mark ['\'', '\''] true false)
  else if wish = .literal ∧ outline.literalAllowed ∧ !simpleKey then
    let pen := ((pen.mark ['|'] true false).put (literalHints chars)).newline
    Pen.literalLines column true chars { pen with spaced := true, indenting := true }
  else if wish = .plain ∧ outline.plainAllowed then
    (pen.space).word chars
  else if wish ≠ .literal ∧ outline.singleAllowed ∧ !(simpleKey && outline.multiline) then
    let pen := Pen.singleQuoted column false chars (pen.mark ['\''] true false)
    pen.word ['\'']
  else (pen.space).word ('"' :: (chars.flatMap doubleQuoted ++ ['"']))

/-- Bytes of a tag that need no escape. -/
def isTagByte (byte : UInt8) : Bool :=
  let c := Char.ofUInt8 byte
  byte < 0x80 && (isNameChar c || ";/?:@&=+$,.~*'()[]".toList.contains c)

/-- A tag with every other byte escaped. -/
def escapedTag (name : String) : List Char :=
  name.toUTF8.toList.flatMap fun byte =>
    if isTagByte byte then [Char.ofUInt8 byte] else '%' :: upperHex 2 byte.toNat

/-- A tag by its own name, or verbatim if it is nothing but its mark. -/
def Pen.tag (name : String) (pen : Pen) : Pen :=
  if name = "!" then pen.space.word ("!<".toList ++ escapedTag name ++ ['>'])
  else pen.space.word ('!' :: escapedTag name)

/-- Keys of one line are simple when they are short, counted in bytes with their tag. -/
def Datum.isSimpleKey : Datum → Bool
  | .tagged name datum => fits (name.utf8ByteSize + if name = "!" then 0 else 1) datum
  | datum => fits 0 datum
where
  /-- Whether a datum without its tag leaves the key short. -/
  fits (used : Nat) (datum : Datum) : Bool :=
    match datum with
    | .sequence items => items.isEmpty && used ≤ 128
    | .mapping entries => entries.isEmpty && used ≤ 128
    | .tagged .. => false
    | datum =>
      match datum.scalar? with
      | some (text, _) => !text.toList.any isBreak && used + text.utf8ByteSize ≤ 128
      | none => false

/-- The indentation one level further in. -/
def deeper : Option Nat → Nat
  | none => 0
  | some column => column + 2

mutual

/--
A datum inside an indentation, as part of a mapping or not, as a simple key or not.

A tag right behind another tag cannot be written.
-/
def Datum.write? (indent : Option Nat) (inMapping simpleKey : Bool) : Datum → Pen → Option Pen
  | .tagged name datum, pen =>
    if datum.isTagged then none
    else datum.write? indent inMapping simpleKey (pen.tag name)
  | .sequence [], pen => some (pen.mark ['[', ']'] true false)
  | .sequence items, pen =>
    -- A sequence under a key stays at the column of the key.
    let column := if inMapping && !pen.indenting then indent.getD 0 else deeper indent
    writeItems? column items pen
  | .mapping [], pen => some (pen.mark ['\x7b', '\x7d'] true false)
  | .mapping entries, pen => writeEntries? (deeper indent) entries pen
  | .null, pen => some (pen.scalar 0 simpleKey "null" .plain)
  | .bool value, pen => some (pen.scalar 0 simpleKey (if value then "true" else "false") .plain)
  | .int value, pen => some (pen.scalar 0 simpleKey (toString value) .plain)
  | .float value, pen => some (pen.scalar 0 simpleKey (Spelling.yaml.text value) .plain)
  | .string value, pen => some (pen.scalar (indent.getD 0 + 2) simpleKey value (wishOf value))

/-- The items of a sequence, each after a hyphen. -/
def writeItems? (column : Nat) : List Datum → Pen → Option Pen
  | [], pen => some pen
  | item :: rest, pen => do
    let pen := (pen.indent column).mark ['-'] true true
    writeItems? column rest (← item.write? (some column) false false pen)

/-- The entries of a mapping, where a key that is not simple has a question mark before it. -/
def writeEntries? (column : Nat) : List (Datum × Datum) → Pen → Option Pen
  | [], pen => some pen
  | (key, value) :: rest, pen => do
    let simple := key.isSimpleKey
    let start := pen.indent column
    let pen ← key.write? (some column) true simple
      (if simple then start else start.mark ['?'] true true)
    let pen :=
      if simple then pen.mark [':'] false false else (pen.indent column).mark [':'] true true
    writeEntries? column rest (← value.write? (some column) true false pen)

end

/-- The text of a datum, with the end of its last line, unless it cannot be written. -/
def Datum.toText? (datum : Datum) : Option String := do
  return ((← datum.write? none false false {}).indent 0).text

end Placeholder.Yaml

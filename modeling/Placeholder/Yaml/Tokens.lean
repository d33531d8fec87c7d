import Placeholder.Yaml.Block
import Placeholder.Yaml.Plain
import Placeholder.Yaml.Property
import Placeholder.Yaml.Quoted
import Placeholder.Yaml.Token

/-! A text is cut into tokens, where indentation opens and closes blocks and colons make keys. -/

namespace Placeholder.Yaml

/-- A token that turns out to be a key if a colon follows soon enough on its line. -/
structure PossibleKey where
  /-- A token where a key is due must turn out to be one. -/
  required : Bool
  /-- The count of tokens before this one. -/
  token : Nat
  index : Nat
  line : Nat
  column : Nat

/-- The tokens so far, with all that decides how the text after them is read. -/
structure Scan where
  cursor : Cursor
  tokens : Array Token := #[]
  /-- The column of the innermost block, which no block has at the start. -/
  indent : Option Nat := none
  /-- The columns of the blocks around it. -/
  outer : List (Option Nat) := []
  /-- The possible key of the block context and of each flow collection, the innermost first. -/
  keys : List (Option PossibleKey) := [none]
  /-- Whether a key may start here. -/
  keyAllowed : Bool := true

namespace Scan

/-- Whether the cursor is inside a flow collection. -/
def inFlow (scan : Scan) : Bool :=
  1 < scan.keys.length

/-- A token is added at the end. -/
def push (scan : Scan) (token : Token) : Scan :=
  { scan with tokens := scan.tokens.push token }

/-- A block token opens at a column that is further in than the innermost block. -/
def openBlock (scan : Scan) (column position : Nat) (token : Token) : Scan :=
  if !scan.inFlow && scan.indent.all (· < column) then
    { scan with
      indent := some column
      outer := scan.indent :: scan.outer
      tokens := scan.tokens.insertIdxIfInBounds position token }
  else scan

/-- Every block that is further in than a column is closed. -/
def closeBlocks (column : Option Nat) : List (Option Nat) → Scan → Scan
  | [], scan => scan
  | around :: outer, scan =>
    let inside :=
      match scan.indent, column with
      | some indent, some column => decide (column < indent)
      | some _, none => true
      | none, _ => false
    if inside then
      closeBlocks column outer { scan.push .blockEnd with indent := around, outer }
    else scan

/-- Blocks are closed at a column, flow collections having none. -/
def unroll (scan : Scan) (column : Option Nat) : Scan :=
  if scan.inFlow then scan else closeBlocks column scan.outer scan

/-- A possible key is given up unless it is required to be one. -/
def dropKey? (scan : Scan) : Option Scan :=
  match scan.keys with
  | some key :: keys => if key.required then none else some { scan with keys := none :: keys }
  | _ => some scan

/-- The token that starts here may turn out to be a key. -/
def saveKey? (scan : Scan) : Option Scan :=
  if !scan.keyAllowed then some scan
  else do
    let scan ← scan.dropKey?
    let { index, line, column, .. } := scan.cursor
    let required := !scan.inFlow && scan.indent == some column
    let key := { required, token := scan.tokens.size, index, line, column }
    return { scan with keys := some key :: scan.keys.tail }

/-- Keys end on their own line and within 1024 characters. -/
def expireKeys? (scan : Scan) : Option Scan := do
  let expired (key : PossibleKey) : Bool :=
    key.line < scan.cursor.line || key.index + 1024 < scan.cursor.index
  let keys ← scan.keys.mapM fun
    | none => some none
    | some key =>
      if !expired key then some (some key) else if key.required then none else some none
  return { scan with keys }

/-- Blanks, comments and line breaks before the next token. -/
def skipToToken : Nat → Scan → Scan
  | 0, scan => scan
  | budget + 1, scan =>
    let cursor := scan.cursor
    let cursor :=
      if cursor.column == 0 && cursor.sees byteOrderMark then cursor.advance 1 else cursor
    -- A tab may not be taken for indentation where a block could start.
    let tabs := scan.inFlow || !scan.keyAllowed
    let cursor := (cursor.skipWhile fun c => c == ' ' || (tabs && c == '\t')).skipComment
    if cursor.seesAny isBreak then
      skipToToken budget
        { scan with cursor := cursor.takeBreak.2, keyAllowed := scan.keyAllowed || !scan.inFlow }
    else { scan with cursor }

/-- A mark of one character becomes a token. -/
def mark (scan : Scan) (token : Token) (width : Nat := 1) : Scan :=
  { scan.push token with cursor := scan.cursor.advance width }

/-- A document mark closes everything before it. -/
def documentMark? (scan : Scan) (token : Token) : Option Scan := do
  let scan ← (scan.unroll none).dropKey?
  return { scan with keyAllowed := false }.mark token 3

/-- A directive stands at the start of a line and takes all of it. -/
def directive? (scan : Scan) : Option Scan := do
  let scan ← (scan.unroll none).dropKey?
  let (name, cursor) := (scan.cursor.advance 1).takeWhile isNameChar
  if !endsToken cursor.peek then none
  let (token, cursor) ←
    if name = "YAML".toList then
      (Property.version? cursor).map fun (major, minor, cursor) =>
        (Token.version major minor, cursor)
    else if name = "TAG".toList then
      (Property.tagPrefix? cursor).map fun (handle, bytes, cursor) =>
        (Token.tagPrefix handle bytes, cursor)
    else none
  let cursor ← cursor.skipRestOfLine?
  return { scan.push token with cursor, keyAllowed := false }

/-- The start of a flow collection, which may itself be a key. -/
def flowStart? (scan : Scan) (token : Token) : Option Scan := do
  let scan ← scan.saveKey?
  return { scan with keys := none :: scan.keys, keyAllowed := true }.mark token

/-- The end of a flow collection, whose possible key is given up. -/
def flowEnd? (scan : Scan) (token : Token) : Option Scan := do
  let scan ← scan.dropKey?
  let keys := if scan.inFlow then scan.keys.tail else scan.keys
  return { scan with keys, keyAllowed := false }.mark token

/-- The comma between the entries of a flow collection. -/
def flowEntry? (scan : Scan) : Option Scan := do
  let scan ← scan.dropKey?
  return { scan with keyAllowed := true }.mark .flowEntry

/-- The hyphen of an entry, which opens a block sequence if it is further in. -/
def blockEntry? (scan : Scan) : Option Scan := do
  if !scan.inFlow && !scan.keyAllowed then none
  let scan := scan.openBlock scan.cursor.column scan.tokens.size .blockSequenceStart
  let scan ← scan.dropKey?
  return { scan with keyAllowed := true }.mark .blockEntry

/-- The question mark of a key, which opens a block mapping if it is further in. -/
def explicitKey? (scan : Scan) : Option Scan := do
  if !scan.inFlow && !scan.keyAllowed then none
  let scan := scan.openBlock scan.cursor.column scan.tokens.size .blockMappingStart
  let scan ← scan.dropKey?
  return { scan with keyAllowed := !scan.inFlow }.mark .key

/-- The colon of a value, which makes the token before it a key if it may be one. -/
def value? (scan : Scan) : Option Scan :=
  match scan.keys with
  | some key :: keys =>
    let scan := { scan with tokens := scan.tokens.insertIdxIfInBounds key.token .key }
    let scan := scan.openBlock key.column key.token .blockMappingStart
    some ({ scan with keys := none :: keys, keyAllowed := false }.mark .value)
  | _ => do
    if !scan.inFlow && !scan.keyAllowed then none
    let scan := scan.openBlock scan.cursor.column scan.tokens.size .blockMappingStart
    return { scan with keyAllowed := !scan.inFlow }.mark .value

/-- A token that may be a key, read from the cursor. -/
def keyToken? (scan : Scan) (read? : Cursor → Option (Token × Cursor)) : Option Scan := do
  let scan ← scan.saveKey?
  let (token, cursor) ← read? scan.cursor
  return { scan.push token with cursor, keyAllowed := false }

/-- A block scalar, which is no key. -/
def blockScalar? (scan : Scan) : Option Scan := do
  let scan ← scan.dropKey?
  let style := if scan.cursor.sees '|' then Style.literal else .folded
  let (text, cursor) ← Block.read? scan.indent scan.cursor
  return { scan.push (.scalar style text) with cursor, keyAllowed := true }

/-- A plain scalar, after which a key may start if its line has ended. -/
def plainScalar? (scan : Scan) : Option Scan := do
  let scan ← scan.saveKey?
  let indent := match scan.indent with | some column => column + 1 | none => 0
  let (text, ended, cursor) ← Plain.read? scan.inFlow indent scan.cursor
  return { scan.push (.scalar .plain text) with cursor, keyAllowed := ended }

/-- Whether a plain scalar starts with a character, given the one after it. -/
def startsPlain (flow : Bool) (c : Char) (next : Option Char) : Bool :=
  if c = '-' then !next.any isBlank
  else if c = '?' ∨ c = ':' then !flow && !endsToken next
  else !indicators.contains c

/-- The next token, at a cursor that is neither at a gap nor at the end. -/
def next? (scan : Scan) (c : Char) : Option Scan :=
  let cursor := scan.cursor
  let following := cursor.peekAt 1
  let flow := scan.inFlow
  if cursor.column == 0 && c == '%' then scan.directive?
  else if cursor.seesDelimiter '-' then scan.documentMark? .documentStart
  else if cursor.seesDelimiter '.' then scan.documentMark? .documentEnd
  else if c = '[' then scan.flowStart? .flowSequenceStart
  else if c = '\x7b' then scan.flowStart? .flowMappingStart
  else if c = ']' then scan.flowEnd? .flowSequenceEnd
  else if c = '\x7d' then scan.flowEnd? .flowMappingEnd
  else if c = ',' then scan.flowEntry?
  else if c = '-' ∧ endsToken following then scan.blockEntry?
  else if c = '?' ∧ (flow || endsToken following) then scan.explicitKey?
  else if c = ':' ∧ (flow || endsToken following) then scan.value?
  else if c = '*' then
    scan.keyToken? fun cursor => (Property.anchorName? (cursor.advance 1)).map fun (name, rest) =>
      (.alias name, rest)
  else if c = '&' then
    scan.keyToken? fun cursor => (Property.anchorName? (cursor.advance 1)).map fun (name, rest) =>
      (.anchor name, rest)
  else if c = '!' then
    scan.keyToken? fun cursor => (Property.tag? flow cursor).map fun (handle, bytes, rest) =>
      (.tag handle bytes, rest)
  else if (c = '|' ∨ c = '>') ∧ !flow then scan.blockScalar?
  else if c = '\'' ∨ c = '"' then
    scan.keyToken? fun cursor => (Quoted.read? cursor).map fun (text, rest) =>
      (.scalar .quoted text, rest)
  else if startsPlain flow c following then scan.plainScalar?
  else none

/-- The end of the text closes all blocks and leaves no key due. -/
def finish? (scan : Scan) : Option (Array Token) := do
  let scan ← (scan.unroll none).dropKey?
  return scan.tokens.push .streamEnd

/-- All tokens from the cursor on. -/
def run? : Nat → Scan → Option (Array Token)
  | 0, _ => none
  | budget + 1, scan => do
    let scan ← (scan.skipToToken (scan.cursor.rest.length + 1)).expireKeys?
    let scan := scan.unroll (some scan.cursor.column)
    match scan.cursor.peek with
    | none => scan.finish?
    | some c => run? budget (← scan.next? c)

end Scan

/-- The tokens of a text. -/
def Token.ofText? (text : String) : Option (List Token) :=
  let chars := text.toList
  if chars.all isAllowed then
    -- Every token takes a character, and one step more finds the end.
    (Scan.run? (chars.length + 1) { cursor := { rest := chars } }).map Array.toList
  else none

end Placeholder.Yaml

import Placeholder.Text.Digits
import Placeholder.Yaml.Gap

/-! Quoted scalars end at their closing quote, and only double quotes know escapes. -/

namespace Placeholder.Yaml.Quoted

/-- Escapes of a single character. -/
def shortEscapes : List (Char × Char) :=
  [('0', '\x00'), ('a', '\x07'), ('b', '\x08'), ('t', '\t'), ('\t', '\t'), ('n', '\n'),
    ('v', '\x0b'), ('f', '\x0c'), ('r', '\r'), ('e', '\x1b'), (' ', ' '), ('"', '"'),
    ('/', '/'), ('\\', '\\'), ('N', '\u0085'), ('_', '\u00a0'), ('L', '\u2028'),
    ('P', '\u2029')]

/-- Escapes by code point, with the number of digits after them. -/
def codeEscapes : List (Char × Nat) :=
  [('x', 2), ('u', 4), ('U', 8)]

/-- The character of an escape, at the character after the backslash. -/
def escape? (cursor : Cursor) : Option (Char × Cursor) := do
  let letter ← cursor.peek
  match shortEscapes.lookup letter with
  | some c => return (c, cursor.advance 1)
  | none =>
    let width ← codeEscapes.lookup letter
    let digits := (cursor.advance 1).rest.take width
    if digits.length < width then none
    let code ← Text.numeralValue? 16 digits
    -- Surrogates and numbers beyond the last code point stand for no character.
    if code.isValidChar then return (Char.ofNat code, cursor.advance (1 + width)) else none

/-- The text up to the next gap or quote, and whether an escaped line break ended it. -/
def run? (single : Bool) : Nat → Cursor → Option (List Char × Bool × Cursor)
  | 0, _ => none
  | budget + 1, cursor =>
    let continueWith (c : Char) (next : Cursor) : Option (List Char × Bool × Cursor) := do
      let (text, broken, cursor) ← run? single budget next
      return (c :: text, broken, cursor)
    match cursor.rest with
    | [] => some ([], false, cursor)
    | c :: rest =>
      if isSpace c then some ([], false, cursor)
      else if single then
        if c = '\'' then
          -- A doubled quote stands for one.
          if rest.head? = some '\'' then continueWith '\'' (cursor.advance 2)
          else some ([], false, cursor)
        else continueWith c (cursor.advance 1)
      else if c = '"' then some ([], false, cursor)
      else if c = '\\' then
        if rest.head?.any isBreak then some ([], true, (cursor.advance 1).takeBreak.2)
        else do
          let (char, next) ← escape? (cursor.advance 1)
          continueWith char next
      else continueWith c (cursor.advance 1)

/-- The text of a scalar up to its closing quote. -/
def body? (single : Bool) : Nat → Cursor → Option (List Char × Cursor)
  | 0, _ => none
  | budget + 1, cursor => do
    -- A scalar does not reach into the next document.
    if cursor.seesDocument || cursor.rest.isEmpty then none
    let (text, broken, cursor) ← run? single (cursor.rest.length + 1) cursor
    if cursor.sees (if single then '\'' else '"') then return (text, cursor.advance 1)
    let (gap, cursor) ← Gap.read? 0 (cursor.rest.length + 1) { broken } cursor
    let (more, cursor) ← body? single budget cursor
    return (text ++ gap.text ++ more, cursor)

/-- The text of the quoted scalar at a cursor. -/
def read? (cursor : Cursor) : Option (String × Cursor) :=
  (body? (cursor.sees '\'') (cursor.rest.length + 1) (cursor.advance 1)).map
    fun (text, cursor) => (String.ofList text, cursor)

end Placeholder.Yaml.Quoted

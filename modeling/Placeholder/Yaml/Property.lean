import Placeholder.Text.Digits
import Placeholder.Yaml.Cursor

/-! Anchors, aliases and tags stand before nodes, and directives stand before documents. -/

namespace Placeholder.Yaml.Property

/-- The name of an anchor or an alias, after its mark. -/
def anchorName? (cursor : Cursor) : Option (String × Cursor) :=
  let (name, next) := cursor.takeWhile isNameChar
  let ended := endsToken next.peek || next.seesAny "?:,]\x7d%@\x60".toList.contains
  if name.isEmpty || !ended then none else some (String.ofList name, next)

/-- The byte of a percent escape. -/
def escapedByte? (cursor : Cursor) : Option (UInt8 × Cursor) :=
  match cursor.rest with
  | '%' :: high :: low :: _ =>
    (Text.numeralValue? 16 [high, low]).map fun value => (UInt8.ofNat value, cursor.advance 3)
  | _ => none

/-- The count of bytes that a first byte announces for its character. -/
def announcedBytes (first : UInt8) : Nat :=
  if first < 0x80 then 1
  else if first &&& 0xE0 == 0xC0 then 2
  else if first &&& 0xF0 == 0xE0 then 3
  else if first &&& 0xF8 == 0xF0 then 4
  else 0

/-- Escaped bytes that continue a character. -/
def continuation? : Nat → Cursor → Option (List UInt8 × Cursor)
  | 0, cursor => some ([], cursor)
  | count + 1, cursor => do
    let (byte, cursor) ← escapedByte? cursor
    if byte &&& 0xC0 != 0x80 then none
    let (bytes, cursor) ← continuation? count cursor
    return (byte :: bytes, cursor)

/-- The bytes of a character that is escaped byte by byte. -/
def escapedCharacter? (cursor : Cursor) : Option (List UInt8 × Cursor) := do
  let (first, cursor) ← escapedByte? cursor
  match announcedBytes first with
  | 0 => none
  | count + 1 =>
    let (bytes, cursor) ← continuation? count cursor
    return (first :: bytes, cursor)

/-- Characters of a tag, with three more of them where nothing can be mistaken for a collection. -/
def isTagChar (verbatim : Bool) (c : Char) : Bool :=
  isNameChar c || tagMarks.contains c || (verbatim && [',', '[', ']'].contains c)

/-- The bytes of a tag up to the first character that is none of its own. -/
def tagBytes? (verbatim : Bool) : Nat → Cursor → Option (List UInt8 × Cursor)
  | 0, _ => none
  | budget + 1, cursor =>
    match cursor.peek with
    | none => some ([], cursor)
    | some c =>
      if c = '%' then do
        let (bytes, cursor) ← escapedCharacter? cursor
        let (more, cursor) ← tagBytes? verbatim budget cursor
        return (bytes ++ more, cursor)
      else if isTagChar verbatim c then do
        let (more, cursor) ← tagBytes? verbatim budget (cursor.advance 1)
        return (c.toUInt8 :: more, cursor)
      else some ([], cursor)

/-- The handle at a cursor: an exclamation mark, a name, and an exclamation mark if there is one. -/
def handle? (cursor : Cursor) : Option (List Char × Cursor) :=
  if !cursor.sees '!' then none
  else
    let (name, next) := (cursor.advance 1).takeWhile isNameChar
    if next.sees '!' then some ('!' :: (name ++ ['!']), next.advance 1)
    else some ('!' :: name, next)

/-- The handle and the bytes of the tag at a cursor. -/
def tag? (flow : Bool) (cursor : Cursor) : Option (String × List UInt8 × Cursor) := do
  let budget := cursor.rest.length + 1
  let (handle, bytes, cursor) ←
    if cursor.peekAt 1 = some '<' then do
      let (bytes, cursor) ← tagBytes? true budget (cursor.advance 2)
      if bytes.isEmpty || !cursor.sees '>' then none
      pure ("", bytes, cursor.advance 1)
    else do
      let (handle, cursor) ← handle? cursor
      let (bytes, cursor) ← tagBytes? false budget cursor
      if 1 < handle.length ∧ handle.getLast? = some '!' then
        if bytes.isEmpty then none
        pure (String.ofList handle, bytes, cursor)
      else
        -- What looked like a handle begins the tag, and an exclamation mark alone is all of it.
        match handle.tail.map Char.toUInt8 ++ bytes with
        | [] => pure ("", ['!'.toUInt8], cursor)
        | bytes => pure ("!", bytes, cursor)
  if endsToken cursor.peek || (flow && cursor.sees ',') then return (handle, bytes, cursor)
  else none

/-- A number of a version, of at most nine digits. -/
def versionNumber? (cursor : Cursor) : Option (Nat × Cursor) :=
  let (digits, next) := cursor.takeWhile Char.isDigit
  if digits.isEmpty || 9 < digits.length then none else some (Text.decimalValue digits, next)

/-- The version after the name of its directive. -/
def version? (cursor : Cursor) : Option (Nat × Nat × Cursor) := do
  let (major, cursor) ← versionNumber? (cursor.skipWhile isBlank)
  if !cursor.sees '.' then none
  let (minor, cursor) ← versionNumber? (cursor.advance 1)
  return (major, minor, cursor)

/-- The handle and the bytes that it abbreviates, after the name of their directive. -/
def tagPrefix? (cursor : Cursor) : Option (String × List UInt8 × Cursor) := do
  let (handle, cursor) ← handle? (cursor.skipWhile isBlank)
  -- A handle is closed by an exclamation mark, which may be the opening one.
  if handle.getLast? ≠ some '!' ∨ !cursor.seesAny isBlank then none
  let cursor := cursor.skipWhile isBlank
  let (bytes, cursor) ← tagBytes? true (cursor.rest.length + 1) cursor
  if bytes.isEmpty || !endsToken cursor.peek then none
  return (String.ofList handle, bytes, cursor)

end Placeholder.Yaml.Property

import Placeholder.Options
import Placeholder.Random.Draw
import Placeholder.Text.Digits
import Placeholder.Value

/-! Random identifiers are 16 bytes, of which six bits say how they were made. -/

namespace Placeholder.Generator

/-- Version four is set in the seventh byte and the standard variant in the ninth. -/
def markedBytes (bytes : List UInt8) : List UInt8 :=
  (bytes.modify 6 fun byte => (byte &&& 0x0F) ||| 0x40).modify 8 fun byte =>
    (byte &&& 0x3F) ||| 0x80

/-- The two hexadecimal digits of a byte. -/
def byteText (byte : UInt8) : List Char :=
  [Text.hexDigit (byte.toNat / 16), Text.hexDigit (byte.toNat % 16)]

/-- The groups of bytes in the text of an identifier, by their sizes. -/
def groupSizes : List Nat :=
  [4, 2, 2, 2, 6]

/-- The texts of groups of bytes, with hyphens between them. -/
def groupsText : List Nat → List UInt8 → List Char
  | [], _ => []
  | [size], bytes => (bytes.take size).flatMap byteText
  | size :: sizes, bytes =>
    (bytes.take size).flatMap byteText ++ '-' :: groupsText sizes (bytes.drop size)

/-- The text of an identifier. -/
def identifierText (bytes : List UInt8) : String :=
  String.ofList (groupsText groupSizes (markedBytes bytes))

/-- A random identifier. -/
def identifier : Draw String := do
  return identifierText (← Draw.sixteenBytes)

/-- The generator `uuid`. -/
def generateIdentifier (_ : Options) : Draw Value := do
  return .string (← identifier)

end Placeholder.Generator

import Placeholder.Generator.Number

/-! Characters and strings are drawn from an alphabet of ASCII letters and digits. -/

namespace Placeholder.Generator

/-- The characters that strings are made of. -/
def alphabet : List Char :=
  "ABCDEFGHIJKLMNOPQRSTUVWXYZabcdefghijklmnopqrstuvwxyz0123456789".toList

/-- The shortest length of a string. -/
def leastLength : Int64 :=
  1

/-- The greatest length of a string. -/
def greatestLength : Int64 :=
  100

/-- A character of the alphabet. -/
def character : Draw Char := do
  let position ← integer (some 0) (some 61)
  return alphabet.getD position.toNatClampNeg 'A'

/-- A greatest length as it counts: zero, none and one beyond the limit leave the limit. -/
def upperLength (max : Option Int64) : Int64 :=
  match max with
  | some max =>
    if max = 0 ∨ greatestLength < max then greatestLength
    else if max < leastLength then leastLength
    else max
  | none => greatestLength

/-- A least length as it counts: zero, none and one below the limit leave the limit. -/
def lowerLength (min : Option Int64) : Int64 :=
  match min with
  | some min =>
    if min = 0 ∨ min < leastLength then leastLength
    else if greatestLength < min then greatestLength
    else min
  | none => leastLength

/-- A length within the limits is taken as it is, and otherwise one is drawn between the bounds. -/
def stringLength (min max length : Option Int64) : Draw Nat := do
  match length.filter fun length => leastLength ≤ length && length ≤ greatestLength with
  | some length => return length.toNatClampNeg
  | none =>
    return (← integer (some (lowerLength min)) (some (upperLength max))).toNatClampNeg

/-- A string of a given length. -/
def string (length : Nat) : Draw String := do
  return String.ofList (← Draw.times length character)

/-- The generator `char`. -/
def generateCharacter (_ : Options) : Draw Value := do
  return .string (String.singleton (← character))

/-- The generator `string`, with the options `min`, `max` and `len`. -/
def generateString (options : Options) : Draw Value := do
  let length ←
    stringLength (options.integer? "min" 0) (options.integer? "max" 1)
      (options.integer? "len" 2)
  return .string (← string length)

end Placeholder.Generator

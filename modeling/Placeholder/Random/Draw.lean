import Placeholder.Binary64.Arithmetic
import Placeholder.Random.Source

/-! Words are turned into fractions, indices, chances and bytes. -/

namespace Placeholder.Draw

/-- The fraction that the upper 53 bits of a word are of `2⁵³`. -/
def fractionOf (word : UInt64) : Binary64 :=
  .ofUnits false ((word >>> 11).toNat * Nat.pow 2 1021)

/-- A fraction of at least zero and below one, from one word. -/
def fraction : Draw Binary64 := do
  return fractionOf (← word)

/-- An index below a positive count, from one word or from two when the first is too coarse. -/
def index (count : Nat) : Draw Nat := do
  -- The lower half of a word is enough for a count below its size.
  let size := if count < UInt32.size then UInt32.size else UInt64.size
  let product := (← word).toNat % size * count
  let high := product / size
  let low := product % size
  if size - count < low then
    -- The second word refines the fraction, which may carry into the index.
    let refined := (← word).toNat % size * count / size
    return if size ≤ low + refined then high + 1 else high
  else return high

/-- A chance of a given probability, from one word unless it is certain. -/
def chance (probability : Binary64) : Draw Bool := do
  match probability with
  | .finite false units _ =>
    if units = unitsPerOne then return true
    else return (← word).toNat < units * UInt64.size / unitsPerOne
  | _ =>
    -- Only a negative zero is left among the probabilities, and it never happens.
    let _ ← word
    return false

/-- The bytes of a word, the lowest first. -/
def bytesOf (word : UInt64) : List UInt8 :=
  (List.range 8).map fun place => (word >>> UInt64.ofNat (8 * place)).toUInt8

/-- Sixteen bytes from two words. -/
def sixteenBytes : Draw (List UInt8) := do
  let first ← word
  let second ← word
  return bytesOf first ++ bytesOf second

end Placeholder.Draw

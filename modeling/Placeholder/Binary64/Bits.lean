import Placeholder.Binary64.Basic

/-! The 64-bit interchange pattern of a binary64 number: sign, biased exponent and fraction. -/

namespace Placeholder.Binary64

/-- The leading bit of a significand, which patterns do not show. -/
def hiddenBit : Nat :=
  Nat.pow 2 52

/-- The bit of a pattern that is set for negative numbers. -/
def signBit : Nat :=
  Nat.pow 2 63

/-- The number that a bit pattern stands for, all not-a-number patterns being one number. -/
def ofBits (bits : UInt64) : Binary64 :=
  let pattern := bits.toNat
  let negative := pattern.testBit 63
  let exponent := (pattern >>> 52) % 2048
  let fraction := pattern % hiddenBit
  if exponent = 2047 then
    if fraction = 0 then .infinity negative else .nan
  else if exponent = 0 then
    -- The smallest exponent has no implicit bit.
    ofUnits negative fraction
  else
    ofUnits negative ((hiddenBit + fraction) * Nat.pow 2 (exponent - 1))

/-- The pattern of a sign, a biased exponent and a fraction. -/
def pattern (negative : Bool) (exponent fraction : Nat) : UInt64 :=
  UInt64.ofNat ((if negative then signBit else 0) + exponent * hiddenBit + fraction)

/-- The bit pattern of a number, with the quiet pattern for not-a-number. -/
def toBits : Binary64 → UInt64
  | .nan => pattern false 2047 (hiddenBit / 2)
  | .infinity negative => pattern negative 2047 0
  | .finite negative units _ =>
    if units < hiddenBit then pattern negative 0 units
    else pattern negative (units.log2 - 51) (units / spacing units - hiddenBit)

end Placeholder.Binary64

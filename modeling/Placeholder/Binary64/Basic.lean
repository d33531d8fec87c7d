import Placeholder.Binary64.Rounding

/-! The numbers of the IEEE 754 format binary64, with one not-a-number and exact magnitudes. -/

namespace Placeholder

/-- A binary64 number, whose finite magnitudes are representable counts of `2⁻¹⁰⁷⁴`. -/
inductive Binary64 where
  | nan
  | infinity (negative : Bool)
  | finite (negative : Bool) (units : Nat) (representable : Representable units)
deriving DecidableEq

namespace Binary64

/-- A magnitude on its own grid is finite, and one beyond the largest overflows. -/
def ofUnits (negative : Bool) (units : Nat) : Binary64 :=
  if representable : Representable units then .finite negative units representable
  else .infinity negative

/-- The number nearest to a ratio of units. -/
def ofRatio (negative : Bool) (numerator denominator : Nat) : Binary64 :=
  ofUnits negative (nearestUnits numerator denominator)

/-- Positive zero. -/
def zero : Binary64 :=
  .finite false 0 representable_zero

/-- The number nearest to an integer. -/
def ofInt (value : Int) : Binary64 :=
  ofRatio (value < 0) (value.natAbs * unitsPerOne) 1

/-- The number nearest to a decimal significand times a power of ten. -/
def ofDecimal (negative : Bool) (significand : Nat) (exponent : Int) : Binary64 :=
  -- The first three cases keep powers of ten small where the result is already decided.
  if significand = 0 then .finite negative 0 representable_zero
  else if 400 < exponent then .infinity negative
  else if exponent + significand.log2 < -400 then .finite negative 0 representable_zero
  else if 0 ≤ exponent then
    ofRatio negative (significand * Nat.pow 10 exponent.toNat * unitsPerOne) 1
  else
    ofRatio negative (significand * unitsPerOne) (Nat.pow 10 (-exponent).toNat)

instance : Inhabited Binary64 := ⟨zero⟩

/-- Only not-a-number is neither finite nor infinite. -/
def isNaN : Binary64 → Bool
  | .nan => true
  | _ => false

/-- Whether a number has a magnitude. -/
def isFinite : Binary64 → Bool
  | .finite .. => true
  | _ => false

/-- A finite number as a signed count of units, which forgets only the sign of zero. -/
def signedUnits (negative : Bool) (units : Nat) : Int :=
  if negative then -(units : Int) else units

/-- The order of two numbers, in which both zeros are equal and not-a-number has no part. -/
def order? : Binary64 → Binary64 → Option Ordering
  | .nan, _ | _, .nan => none
  | .infinity left, .infinity right => some (compare right left)
  | .infinity negative, .finite .. => some (if negative then .lt else .gt)
  | .finite .., .infinity negative => some (if negative then .gt else .lt)
  | .finite left leftUnits _, .finite right rightUnits _ =>
    some (compare (signedUnits left leftUnits) (signedUnits right rightUnits))

/-- Strictly below, which is false of not-a-number. -/
def less (left right : Binary64) : Bool :=
  order? left right == some .lt

/-- Numerically equal, which is false of not-a-number and true of the two zeros. -/
def equal (left right : Binary64) : Bool :=
  order? left right == some .eq

/-- At least as large, which is false of not-a-number. -/
def atLeast (left right : Binary64) : Bool :=
  order? left right == some .gt || order? left right == some .eq

/-- The smaller of two numbers, with not-a-number giving way to a number. -/
def min (left right : Binary64) : Binary64 :=
  if left.isNaN then right else if right.less left then right else left

/-- The larger of two numbers, with not-a-number giving way to a number. -/
def max (left right : Binary64) : Binary64 :=
  if left.isNaN then right else if left.less right then right else left

/-- A number outside two bounds is moved to the nearer one, and not-a-number stays. -/
def clamp (value lower upper : Binary64) : Binary64 :=
  if value.less lower then lower else if upper.less value then upper else value

end Binary64

end Placeholder

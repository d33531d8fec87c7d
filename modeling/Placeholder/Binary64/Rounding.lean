/-! Exact ratios are rounded to the magnitudes that binary64 represents, ties going to even. -/

namespace Placeholder

/-- Magnitudes are counted in units of `2⁻¹⁰⁷⁴`, so one is `2¹⁰⁷⁴` units. -/
def unitsPerOne : Nat :=
  Nat.pow 2 1074

/-- The distance between neighbours at a magnitude, a significand having 53 bits. -/
def spacing (units : Nat) : Nat :=
  Nat.pow 2 (units.log2 - 52)

/-- Magnitudes from `2¹⁰²⁴` on overflow. -/
def unitsLimit : Nat :=
  Nat.pow 2 2098

/-- A magnitude is representable when it does not overflow and lies on the grid of its spacing. -/
def Representable (units : Nat) : Prop :=
  units < unitsLimit ∧ units % spacing units = 0

instance (units : Nat) : Decidable (Representable units) :=
  inferInstanceAs (Decidable (_ ∧ _))

/-- Zero is on every grid. -/
theorem representable_zero : Representable 0 := by
  -- Zero is below the limit, and its remainder is zero for every spacing.
  decide +kernel

/-- The nearest whole number to a ratio, with an exact half going to the even neighbour. -/
def roundHalfEven (numerator denominator : Nat) : Nat :=
  let below := numerator / denominator
  let twice := 2 * (numerator % denominator)
  if twice < denominator then below
  else if denominator < twice then below + 1
  else below + below % 2

/-- The nearest point of the grid around a ratio of units. -/
def nearestUnits (numerator denominator : Nat) : Nat :=
  let step := spacing (numerator / denominator)
  roundHalfEven numerator (denominator * step) * step

end Placeholder

import Placeholder.Binary64.Basic
import Placeholder.Text.Digits

/-! The shortest decimal that reads back as a given binary64 magnitude. -/

namespace Placeholder

/-- A decimal number, a significand times a power of ten. -/
structure Decimal where
  significand : Nat
  exponent : Int
deriving DecidableEq, Repr

namespace Decimal

/-- Which of two equally near decimals is chosen. -/
inductive Tie where
  /-- The one further from zero. -/
  | away
  /-- The one with an even last digit. -/
  | even
deriving DecidableEq, Repr

/-- A decimal times a factor, as a ratio. -/
def scaled (decimal : Decimal) (factor : Nat) : Nat × Nat :=
  if 0 ≤ decimal.exponent then
    (decimal.significand * Nat.pow 10 decimal.exponent.toNat * factor, 1)
  else (decimal.significand * factor, Nat.pow 10 (-decimal.exponent).toNat)

/-- Four times the distance in units from a magnitude down to the tie with its neighbour below. -/
def gapBelow (units : Nat) : Nat :=
  let step := spacing units
  -- Below a power of two the neighbours lie twice as close, except among the smallest numbers.
  if units = Nat.pow 2 units.log2 ∧ 1 < step then step else 2 * step

/-- Four times the distance in units from a magnitude up to the tie with its neighbour above. -/
def gapAbove (units : Nat) : Nat :=
  2 * spacing units

/-- A decimal reads back as a magnitude when it lies between the ties around it. -/
def readsBack (units : Nat) (decimal : Decimal) : Bool :=
  let (numerator, denominator) := decimal.scaled (4 * unitsPerOne)
  let lower := (4 * units - gapBelow units) * denominator
  let upper := (4 * units + gapAbove units) * denominator
  -- A tie rounds to the even significand, so the ends belong to even magnitudes only.
  if units / spacing units % 2 = 0 then lower ≤ numerator && numerator ≤ upper
  else lower < numerator && numerator < upper

/-- The exponent of the leading decimal digit of a positive magnitude. -/
def leadingExponent (units : Nat) : Int :=
  -- The smallest magnitude exceeds `10⁻³³⁰`, so the scaled number is never zero.
  ((Text.decimalDigits (units * Nat.pow 10 330 / unitsPerOne)).length : Int) - 331

/-- The decimal nearest to a magnitude among those of an exponent and a length, if it reads back. -/
def nearest? (tie : Tie) (units : Nat) (exponent : Int) (digits : Nat) : Option Decimal :=
  let (numerator, denominator) :=
    if 0 ≤ exponent then (units, unitsPerOne * Nat.pow 10 exponent.toNat)
    else (units * Nat.pow 10 (-exponent).toNat, unitsPerOne)
  let below : Decimal := ⟨numerator / denominator, exponent⟩
  let above : Decimal :=
    -- A carry out of the leading digit leaves a single one.
    if below.significand + 1 = Nat.pow 10 digits then ⟨1, exponent + digits⟩
    else ⟨below.significand + 1, exponent⟩
  match readsBack units below, readsBack units above with
  | true, true =>
    let twice := 2 * (numerator % denominator)
    let roundDown := twice < denominator ||
      (twice == denominator && tie == .even && below.significand % 2 == 0)
    some (if roundDown then below else above)
  | true, false => some below
  | false, true => some above
  | false, false => none

/-- The shortest decimal that reads back as a positive magnitude, and the nearest of those. -/
def shortest (tie : Tie) (units : Nat) : Decimal :=
  let leading := leadingExponent units
  -- Seventeen digits always suffice, so the last alternative is never taken.
  ((List.range 17).findSome? fun (further : Nat) =>
    nearest? tie units (leading - further) (further + 1)).getD ⟨0, 0⟩

end Decimal

end Placeholder

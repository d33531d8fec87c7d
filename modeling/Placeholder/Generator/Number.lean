import Placeholder.Decimal.Reading
import Placeholder.Options
import Placeholder.Random.Draw
import Placeholder.Value

/-! Integers and floats are drawn between bounds. -/

namespace Placeholder.Generator

/-- The largest integer below which binary64 represents every integer. -/
def safeLimit : Int64 :=
  9007199254740991

/-- The integer that a fraction picks between two bounds, which absorb any rounding beyond them. -/
def integerAt (fraction : Binary64) (min max : Int64) : Int64 :=
  let low := Binary64.ofInt64 min
  let position := fraction * (Binary64.ofInt64 max - low) + low
  let value := position.roundHalfUp.toInt64
  let lower := if max < min then max else min
  let upper := if max < min then min else max
  if value < lower then lower else if upper < value then upper else value

/-- An integer between two bounds, which default to the safe integers. -/
def integer (min max : Option Int64) : Draw Int64 := do
  return integerAt (← Draw.fraction) (min.getD (-safeLimit)) (max.getD safeLimit)

/-- A number rounded to decimal places, with an exact half going away from zero. -/
def roundedTo (places : UInt32) (value : Binary64) : Binary64 :=
  let scale := (Binary64.ofInt 10).power places.toInt32.toInt
  (value * scale).roundHalfAway / scale

/-- The float that a fraction picks between two bounds, rounded to decimal places if given. -/
def floatAt (fraction min max : Binary64) (places : Option UInt32) : Binary64 :=
  let position := fraction * (max - min) + min
  let value :=
    match places with
    | some places => roundedTo places position
    | none => position
  value.clamp (min.min max) (min.max max)

/-- A float between two bounds, rounded to decimal places if any are given. -/
def float (min max : Binary64) (places : Option UInt32) : Draw Binary64 := do
  return floatAt (← Draw.fraction) min max places

/-- A bound of floats, where only texts of finite numbers count. -/
def floatBound? (options : Options) (name : String) (position : Nat) : Option Binary64 :=
  (options.text? name position).bind fun text => Binary64.ofNumeral? (Text.trim text.toList)

/-- Decimal places lie between none and ten, two being the default. -/
def decimalPlaces (options : Options) : UInt32 :=
  let places := ((options.integer? "decimals" 2).getD 2).toInt
  UInt32.ofNat (Nat.min places.toNat 10)

/-- The generator `integer`, with the options `min` and `max`. -/
def generateInteger (options : Options) : Draw Value := do
  return .int (← integer (options.integer? "min" 0) (options.integer? "max" 1))

/-- The generator `float`, with the options `min`, `max` and `decimals`. -/
def generateFloat (options : Options) : Draw Value := do
  let min := (floatBound? options "min" 0).getD .zero
  let max := (floatBound? options "max" 1).getD .one
  return .float (← float min max (some (decimalPlaces options)))

end Placeholder.Generator

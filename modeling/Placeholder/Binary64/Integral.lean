import Placeholder.Binary64.Arithmetic
import Placeholder.Integer

/-! Binary64 numbers are rounded to whole numbers and converted to machine integers. -/

namespace Placeholder.Binary64

/-- The greatest whole number that is not above, with the sign of zero kept. -/
def floor : Binary64 → Binary64
  | .finite negative units _ =>
    let whole := units / unitsPerOne
    -- Below zero the magnitude grows when anything is cut off.
    let magnitude := if negative && units % unitsPerOne != 0 then whole + 1 else whole
    ofUnits negative (magnitude * unitsPerOne)
  | value => value

/-- The nearest whole number, with an exact half going away from zero. -/
def roundHalfAway : Binary64 → Binary64
  | .finite negative units _ =>
    ofUnits negative ((2 * units + unitsPerOne) / (2 * unitsPerOne) * unitsPerOne)
  | value => value

/-- The nearest whole number, with an exact half going up. -/
def roundHalfUp (value : Binary64) : Binary64 :=
  let below := value.floor
  -- The fraction is compared, since adding a half before flooring would round twice.
  if (value - below).atLeast (one / ofInt 2) then below + one else below

/-- A number without its fraction, saturated, and zero for not-a-number. -/
def toInt64 : Binary64 → Int64
  | .nan => 0
  | .infinity negative => if negative then Int64.minValue else Int64.maxValue
  | .finite negative units _ => Integer.saturate (signedUnits negative (units / unitsPerOne))

/-- The number nearest to a machine integer. -/
def ofInt64 (value : Int64) : Binary64 :=
  ofInt value.toInt

end Placeholder.Binary64

import Placeholder.Binary64.Basic

/-! Arithmetic computes an exact result in units and rounds it once. -/

namespace Placeholder.Binary64

/-- The same magnitude with the other sign. -/
def neg : Binary64 → Binary64
  | .nan => .nan
  | .infinity negative => .infinity !negative
  | .finite negative units representable => .finite (!negative) units representable

/-- The rounded sum, where opposite infinities have none and an exact cancellation is positive. -/
def add : Binary64 → Binary64 → Binary64
  | .nan, _ | _, .nan => .nan
  | .infinity left, .infinity right => if left = right then .infinity left else .nan
  | .infinity negative, .finite .. | .finite .., .infinity negative => .infinity negative
  | .finite left leftUnits _, .finite right rightUnits _ =>
    let total := signedUnits left leftUnits + signedUnits right rightUnits
    -- A zero sum is negative only when both zeros are.
    let negative := if total = 0 then left && right else total < 0
    ofRatio negative total.natAbs 1

/-- The rounded difference. -/
def sub (left right : Binary64) : Binary64 :=
  left.add right.neg

/-- The rounded product, where an infinity has none with zero. -/
def mul : Binary64 → Binary64 → Binary64
  | .nan, _ | _, .nan => .nan
  | .infinity left, .infinity right => .infinity (left != right)
  | .infinity left, .finite right units _ | .finite left units _, .infinity right =>
    if units = 0 then .nan else .infinity (left != right)
  | .finite left leftUnits _, .finite right rightUnits _ =>
    ofRatio (left != right) (leftUnits * rightUnits) unitsPerOne

/-- The rounded quotient, where zero by zero and infinity by infinity have none. -/
def div : Binary64 → Binary64 → Binary64
  | .nan, _ | _, .nan => .nan
  | .infinity _, .infinity _ => .nan
  | .infinity left, .finite right .. => .infinity (left != right)
  | .finite left .., .infinity right => .finite (left != right) 0 representable_zero
  | .finite left leftUnits _, .finite right rightUnits _ =>
    if rightUnits = 0 then
      if leftUnits = 0 then .nan else .infinity (left != right)
    else ofRatio (left != right) (leftUnits * unitsPerOne) rightUnits

instance : Add Binary64 := ⟨add⟩
instance : Sub Binary64 := ⟨sub⟩
instance : Mul Binary64 := ⟨mul⟩
instance : Div Binary64 := ⟨div⟩

/-- One as a number. -/
def one : Binary64 :=
  ofInt 1

/-- Square and multiply over the binary digits of an exponent, rounding every product. -/
def powerLoop (factor result : Binary64) (exponent : Nat) : Binary64 :=
  let result := if exponent % 2 = 1 then result * factor else result
  if exponent / 2 = 0 then result else powerLoop (factor * factor) result (exponent / 2)
termination_by exponent
decreasing_by omega

/-- An integer power, a negative one being the reciprocal of its opposite. -/
def power (base : Binary64) (exponent : Int) : Binary64 :=
  let magnitude := powerLoop base one exponent.natAbs
  if exponent < 0 then one / magnitude else magnitude

end Placeholder.Binary64

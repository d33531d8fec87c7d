import Placeholder.Integer

/-! Saturation keeps the machine integers and moves every other integer to the nearer end. -/

namespace Placeholder.Integer

/-- A saturated integer is held between the ends of the machine integers. -/
theorem toInt_saturate (value : Int) :
    (saturate value).toInt =
      if value < Int64.minValue.toInt then Int64.minValue.toInt
      else if Int64.maxValue.toInt < value then Int64.maxValue.toInt
      else value := by
  rw [saturate, Int64.ofIntClamp]
  -- The clamp tests the lower end first, like the statement.
  split
  · rename_i low
    rw [if_neg (by omega)]
    split
    · rename_i high
      rw [Int64.toInt_ofIntLE, if_neg (by omega)]
    · rename_i high
      rw [if_pos (by omega)]
  · rename_i low
    rw [if_pos (by omega)]

/-- A machine integer is its own saturation. -/
@[simp] theorem saturate_toInt (value : Int64) : saturate value.toInt = value :=
  Int64.ofIntClamp_toInt value

/-- A saturated integer is negative only when the integer is. -/
theorem toInt_saturate_nonneg {value : Int} (nonneg : 0 ≤ value) : 0 ≤ (saturate value).toInt := by
  rw [toInt_saturate, Int64.toInt_minValue, Int64.toInt_maxValue]
  omega

/-- A machine integer is found when it is equal to the integer. -/
theorem narrow?_eq_some_iff {value : Int} {number : Int64} :
    narrow? value = some number ↔ number.toInt = value := by
  unfold narrow?
  constructor
  · intro found
    split at found
    · rename_i fits
      rw [← Option.some.inj found, fits]
    · cases found
  · rintro rfl
    rw [Int64.ofInt_toInt, if_pos rfl]

/-- No machine integer is found below the least one and above the largest one. -/
theorem narrow?_eq_none_iff {value : Int} :
    narrow? value = none ↔ value < Int64.minValue.toInt ∨ Int64.maxValue.toInt < value := by
  rw [Option.eq_none_iff_forall_ne_some]
  constructor
  · intro missing
    -- Between the ends the saturated integer would have been found.
    have other := missing (saturate value)
    rw [ne_eq, narrow?_eq_some_iff, toInt_saturate] at other
    omega
  · rintro beyond number found
    rw [narrow?_eq_some_iff] at found
    have low := Int64.minValue_le_toInt number
    have high := Int64.toInt_le number
    omega

/-- Above an integer that has no room, and is not negative, none has room. -/
theorem narrow?_none_of_le {small large : Int} (nonneg : 0 ≤ small) (more : small ≤ large)
    (full : narrow? small = none) : narrow? large = none := by
  have beyond := narrow?_eq_none_iff.mp full
  refine narrow?_eq_none_iff.mpr (Or.inr ?_)
  rw [Int64.toInt_minValue, Int64.toInt_maxValue] at beyond
  rw [Int64.toInt_maxValue]
  omega

/-- The largest machine integer in place of a missing one is what saturation gives. -/
theorem getD_narrow? {value : Int} (nonneg : 0 ≤ value) :
    (narrow? value).getD Int64.maxValue = saturate value := by
  cases found : narrow? value with
  | none =>
    -- An integer that is not negative has no room only above the largest one.
    apply Int64.toInt_inj.mp
    have beyond := narrow?_eq_none_iff.mp found
    have held := toInt_saturate value
    rw [Int64.toInt_minValue, Int64.toInt_maxValue] at beyond held
    rw [Option.getD_none, Int64.toInt_maxValue]
    omega
  | some number =>
    rw [← narrow?_eq_some_iff.mp found, saturate_toInt, Option.getD_some]

end Placeholder.Integer

import Placeholder.Proofs.Binary64.Numbers
import Placeholder.Proofs.Generator.Bounds

/-! Floats are drawn between bounds that are numbers, and without room to move they stay there. -/

namespace Placeholder

namespace Draw

/-- A fraction counts fewer than `2⁵³` of the steps between zero and one. -/
theorem steps_lt (word : UInt64) : (word >>> 11).toNat < 2 ^ 53 := by
  have below : word.toNat < 18446744073709551616 := word.toNat_lt
  have shifted : (word >>> 11).toNat = word.toNat / 2048 := by
    rw [UInt64.toNat_shiftRight, Nat.shiftRight_eq_div_pow]
    rfl
  omega

/-- A fraction has few enough digits to be represented. -/
theorem exists_fractionOf (word : UInt64) :
    ∃ fits, fractionOf word = .finite false ((word >>> 11).toNat * Nat.pow 2 1021) fits := by
  have low : 1021 ≤ 2045 := by decide
  unfold fractionOf
  generalize 1021 = places at low ⊢
  have fits := representable_scaled (steps_lt word) low
  exact ⟨fits, by rw [Binary64.ofUnits, dif_pos fits]⟩

/-- The fraction of a word is finite. -/
theorem isFinite_fractionOf (word : UInt64) : (fractionOf word).isFinite = true := by
  obtain ⟨fits, same⟩ := exists_fractionOf word
  rw [same]
  rfl

/-- A drawn fraction is finite. -/
theorem isFinite_fraction : fraction.Always (·.isFinite = true) :=
  always_bind (always_true word) fun word _ => always_pure (isFinite_fractionOf word)

end Draw

namespace Generator

/-- Up to ten decimal places are scaled by a number that is finite and not zero. -/
theorem power_ten_nonzero {places : UInt32} (few : places.toNat ≤ 10) :
    ((Binary64.ofInt 10).power places.toInt32.toInt).Nonzero := by
  have all : ∀ count < 11,
      ((Binary64.ofInt 10).power (UInt32.ofNat count).toInt32.toInt).Nonzero := by
    decide +kernel
  have same := all places.toNat (Nat.lt_succ_of_le few)
  rwa [UInt32.ofNat_toNat] at same

/-- A number that is rounded to at most ten decimal places is a number again. -/
theorem isNaN_roundedTo {places : UInt32} (few : places.toNat ≤ 10) {value : Binary64}
    (number : value.isNaN = false) : (roundedTo places value).isNaN = false := by
  have scale := power_ten_nonzero few
  exact Binary64.isNaN_div_nonzero
    (Binary64.isNaN_roundHalfAway (Binary64.isNaN_mul_nonzero number scale)) scale

/-- Between a bound and the same bound nothing but the bound is drawn. -/
theorem float_self {places : UInt32} (few : places.toNat ≤ 10) {bound : Binary64}
    (finite : bound.isFinite = true) :
    (float bound bound (some places)).Always fun value => value.equal bound = true := by
  unfold float
  refine Draw.always_bind Draw.isFinite_fraction fun fraction part => Draw.always_pure ?_
  have position := Binary64.isNaN_add
    (Binary64.isNaN_mul part (Binary64.isFinite_sub_self finite)) finite
  unfold floatAt
  dsimp only
  rw [Binary64.min_self, Binary64.max_self]
  exact Binary64.clamp_equal (isNaN_roundedTo few position) (Binary64.isNaN_of_isFinite finite)

/-- The generator `float` draws between its bounds with its decimal places. -/
theorem generateFloat_eq_float (options : Options) :
    generateFloat options =
      Value.float <$> float ((floatBound? options "min" 0).getD .zero)
        ((floatBound? options "max" 1).getD .one) (some (decimalPlaces options)) := by
  rw [generateFloat, ← bind_pure_comp]

end Generator

end Placeholder

import Placeholder.Binary64.Integral
import Placeholder.Proofs.Binary64.Order
import Placeholder.Proofs.Binary64.Rounding

/-! Operations on numbers give numbers again, apart from the few that have no result. -/

namespace Placeholder

/-- A count of at most 53 bits is representable at every scale that does not overflow. -/
theorem representable_scaled {count places : Nat} (short : count < 2 ^ 53)
    (few : places ≤ 2045) : Representable (count * Nat.pow 2 places) := by
  rw [Nat.pow_eq]
  refine ⟨?_, ?_⟩
  · have scaled := Nat.mul_lt_mul_of_pos_right short (Nat.two_pow_pos places)
    rw [← Nat.pow_add] at scaled
    have bits : 53 + places ≤ 2098 := Nat.add_le_add_left few 53
    unfold unitsLimit
    -- Nothing but this bound is needed of a limit whose value is best left alone.
    generalize 2098 = limit at bits ⊢
    exact Nat.lt_of_lt_of_le scaled (Nat.pow_le_pow_right (by decide) bits)
  · by_cases none : count = 0
    · rw [none, Nat.zero_mul, Nat.zero_mod]
    · -- The grid at that magnitude is no coarser than the scale.
      have leading : count.log2 < 53 := (Nat.log2_lt none).mpr short
      have positive : count * 2 ^ places ≠ 0 :=
        Nat.mul_ne_zero none (Nat.ne_of_gt (Nat.two_pow_pos places))
      have shifted : (count * 2 ^ places).log2 = count.log2 + places := by
        have least := Nat.mul_le_mul_right (2 ^ places) (Nat.log2_self_le none)
        have most := Nat.mul_lt_mul_of_pos_right (@Nat.lt_log2_self count) (Nat.two_pow_pos places)
        rw [Nat.log2_eq_iff positive, Nat.pow_add, Nat.add_right_comm, Nat.pow_add _ (_ + 1)]
        exact ⟨least, most⟩
      have coarse : (count * 2 ^ places).log2 - 52 ≤ places := by omega
      rw [spacing, Nat.pow_eq]
      exact Nat.mod_eq_zero_of_dvd (Nat.dvd_mul_left_of_dvd (Nat.pow_dvd_pow 2 coarse) count)

/-- Whole numbers of 53 bits are on their own grid, and so are small multiples of those. -/
theorem representable_whole {count places : Nat} (short : count < 2 ^ 53) (few : places ≤ 971) :
    Representable (count * 2 ^ places * unitsPerOne) := by
  have room : places + 1074 ≤ 2045 := by omega
  unfold unitsPerOne
  generalize 1074 = height at room ⊢
  rw [Nat.pow_eq, Nat.mul_assoc, ← Nat.pow_add]
  exact representable_scaled short room

namespace Binary64

/-- A finite number other than the two zeros. -/
inductive Nonzero : Binary64 → Prop where
  | finite (negative : Bool) (units : Nat) (representable : Representable units)
    (positive : units ≠ 0) : Nonzero (.finite negative units representable)

instance : DecidablePred Nonzero
  | .nan => isFalse nofun
  | .infinity _ => isFalse nofun
  | .finite negative units representable =>
    if none : units = 0 then isFalse fun nonzero => by
      cases nonzero
      contradiction
    else isTrue (.finite negative units representable none)

/-- A magnitude is a number even when it overflows. -/
theorem isNaN_ofUnits (negative : Bool) (units : Nat) : (ofUnits negative units).isNaN = false := by
  unfold ofUnits
  split
  · rfl
  · rfl

/-- A rounded ratio is a number even when it overflows. -/
theorem isNaN_ofRatio (negative : Bool) (numerator denominator : Nat) :
    (ofRatio negative numerator denominator).isNaN = false :=
  isNaN_ofUnits negative _

section Finite

variable {left right : Bool} {leftUnits rightUnits : Nat} (leftFits : Representable leftUnits)
  (rightFits : Representable rightUnits)

/-- The product of finite numbers. -/
theorem mul_finite : finite left leftUnits leftFits * finite right rightUnits rightFits =
    ofRatio (left != right) (leftUnits * rightUnits) unitsPerOne := by
  show mul _ _ = _
  simp only [mul]

/-- The quotient of finite numbers when the divisor is not zero. -/
theorem div_finite (positive : rightUnits ≠ 0) :
    finite left leftUnits leftFits / finite right rightUnits rightFits =
      ofRatio (left != right) (leftUnits * unitsPerOne) rightUnits := by
  show div _ _ = _
  simp only [div, if_neg positive]

/-- The sum of finite numbers is rounded once, whatever its sign. -/
theorem add_finite :
    ∃ negative, finite left leftUnits leftFits + finite right rightUnits rightFits =
      ofRatio negative (signedUnits left leftUnits + signedUnits right rightUnits).natAbs 1 := by
  show ∃ negative, add _ _ = _
  simp only [add]
  exact ⟨_, rfl⟩

end Finite

/-- A ratio is finite when it is rounded to a magnitude below the limit. -/
theorem isFinite_ofRatio_iff {negative : Bool} {numerator denominator : Nat}
    (positive : 0 < denominator) :
    (ofRatio negative numerator denominator).isFinite = true ↔
      nearestUnits numerator denominator < unitsLimit := by
  unfold ofRatio ofUnits
  split
  · rename_i fits
    exact ⟨fun _ => fits.1, fun _ => rfl⟩
  · rename_i excess
    constructor
    · intro finite
      cases finite
    · intro below
      exact absurd ⟨below, Nat.mod_eq_zero_of_dvd (spacing_dvd_nearestUnits positive)⟩ excess

/-- One has units. -/
theorem unitsPerOne_pos : 0 < unitsPerOne := by
  unfold unitsPerOne
  generalize 1074 = height
  exact Nat.two_pow_pos height

/-- A ratio is the number of the magnitude that it is rounded to. -/
theorem ofRatio_of_nearest {numerator denominator units : Nat} (fits : Representable units)
    (nearest : nearestUnits numerator denominator = units) (negative : Bool) :
    ofRatio negative numerator denominator = .finite negative units fits := by
  subst nearest
  rw [ofRatio, ofUnits, dif_pos fits]

/-- A whole number on its own grid is its own number. -/
theorem ofInt_of_representable {value : Nat} (fits : Representable (value * unitsPerOne)) :
    ofInt value = .finite false (value * unitsPerOne) fits :=
  ofRatio_of_nearest fits (nearestUnits_one (Nat.dvd_of_mod_eq_zero fits.2)) false

/-- The magnitude of a finite ratio is what it is rounded to. -/
theorem exists_ofRatio {negative : Bool} {numerator denominator : Nat}
    (finite : (ofRatio negative numerator denominator).isFinite = true) :
    ∃ fits, ofRatio negative numerator denominator =
      .finite negative (nearestUnits numerator denominator) fits := by
  unfold ofRatio ofUnits at finite ⊢
  split
  · rename_i fits
    exact ⟨fits, rfl⟩
  · rename_i excess
    rw [dif_neg excess] at finite
    cases finite

/-- Finite numbers have a product. -/
theorem isNaN_mul {left right : Binary64} (leftFinite : left.isFinite = true)
    (rightFinite : right.isFinite = true) : (left * right).isNaN = false := by
  cases left with
  | nan => cases leftFinite
  | infinity => cases leftFinite
  | finite leftSign leftUnits _ =>
    cases right with
    | nan => cases rightFinite
    | infinity => cases rightFinite
    | finite rightSign rightUnits _ =>
      rw [mul_finite]
      exact isNaN_ofRatio _ _ _

/-- A number keeps a product with every factor that is finite and not zero. -/
theorem isNaN_mul_nonzero {left right : Binary64} (number : left.isNaN = false)
    (nonzero : right.Nonzero) : (left * right).isNaN = false := by
  obtain ⟨negative, units, representable, positive⟩ := nonzero
  cases left with
  | nan => cases number
  | infinity sign =>
    show (if units = 0 then nan else infinity (sign != negative)).isNaN = false
    rw [if_neg positive]
    rfl
  | finite sign others _ =>
    rw [mul_finite]
    exact isNaN_ofRatio _ _ _

/-- A number has a quotient by every divisor that is finite and not zero. -/
theorem isNaN_div_nonzero {left right : Binary64} (number : left.isNaN = false)
    (nonzero : right.Nonzero) : (left / right).isNaN = false := by
  obtain ⟨negative, units, representable, positive⟩ := nonzero
  cases left with
  | nan => cases number
  | infinity sign => rfl
  | finite sign others _ =>
    rw [div_finite _ _ positive]
    exact isNaN_ofRatio _ _ _

/-- A number has a sum with every finite one. -/
theorem isNaN_add {left right : Binary64} (number : left.isNaN = false)
    (finite : right.isFinite = true) : (left + right).isNaN = false := by
  cases right with
  | nan => cases finite
  | infinity => cases finite
  | finite rightSign rightUnits _ =>
    cases left with
    | nan => cases number
    | infinity => rfl
    | finite leftSign leftUnits _ =>
      obtain ⟨negative, sum⟩ := add_finite ‹Representable leftUnits› ‹Representable rightUnits›
      rw [sum]
      exact isNaN_ofRatio _ _ _

/-- A number is still one after rounding. -/
theorem isNaN_roundHalfAway {value : Binary64} (number : value.isNaN = false) :
    value.roundHalfAway.isNaN = false := by
  cases value with
  | nan => cases number
  | infinity => rfl
  | finite negative units _ => exact isNaN_ofUnits _ _

/-- A finite number taken from itself leaves something finite. -/
theorem isFinite_sub_self {value : Binary64} (finite : value.isFinite = true) :
    (value - value).isFinite = true := by
  cases value with
  | nan => cases finite
  | infinity => cases finite
  | finite negative units fits =>
    -- The two signed counts cancel, and no count at all is representable.
    have cancel : signedUnits negative units + signedUnits (!negative) units = 0 := by
      cases negative with
      | false => exact Int.add_right_neg units
      | true => exact Int.add_left_neg units
    have none : nearestUnits 0 1 = 0 := rfl
    obtain ⟨sign, sum⟩ : ∃ sign, Binary64.finite negative units fits - .finite negative units fits =
      ofRatio sign (signedUnits negative units + signedUnits (!negative) units).natAbs 1 :=
        add_finite fits fits
    rw [sum, cancel, Int.natAbs_zero, ofRatio, none, ofUnits,
      dif_pos representable_zero]
    rfl

/-- A finite number equals itself. -/
theorem equal_self {value : Binary64} (number : value.isNaN = false) :
    value.equal value = true := by
  cases value with
  | nan => cases number
  | infinity sign => cases sign <;> rfl
  | finite sign units _ => simp [equal, order?]

/-- Between a bound and the same bound there is only the bound. -/
theorem clamp_equal {value bound : Binary64} (number : value.isNaN = false)
    (boundNumber : bound.isNaN = false) : (value.clamp bound bound).equal bound = true := by
  unfold clamp
  cases below : value.less bound with
  | true => exact equal_self boundNumber
  | false =>
    cases above : bound.less value with
    | true => exact equal_self boundNumber
    | false =>
      -- What is neither below nor above is equal.
      obtain ⟨order, found⟩ :=
        Option.isSome_iff_exists.mp (order?_isSome_iff.mpr ⟨number, boundNumber⟩)
      cases order with
      | lt => simp [less, found] at below
      | eq => simp [equal, found]
      | gt => simp [less, order?_swap value bound, found] at above

/-- The smaller of a number and itself. -/
theorem min_self (value : Binary64) : value.min value = value := by
  unfold min
  split
  · rfl
  · split
    · rfl
    · rfl

/-- The larger of a number and itself. -/
theorem max_self (value : Binary64) : value.max value = value := by
  unfold max
  split
  · rfl
  · split
    · rfl
    · rfl

end Binary64

end Placeholder

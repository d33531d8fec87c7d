import Placeholder.Proofs.Binary64.Numbers

/-! No number is closer to an exact one than the number that it is rounded to. -/

namespace Placeholder

/-- No multiple of the denominator is closer to a ratio than the one that it is rounded to. -/
theorem roundHalfEven_nearest (numerator : Nat) {denominator : Nat} (positive : 0 < denominator)
    (count : Nat) :
    ((roundHalfEven numerator denominator * denominator : Nat) - numerator : Int).natAbs ≤
      ((count * denominator : Nat) - numerator : Int).natAbs := by
  have whole := Nat.div_add_mod' numerator denominator
  have rest := Nat.mod_lt numerator positive
  have next : (numerator / denominator + 1) * denominator =
      numerator / denominator * denominator + denominator := Nat.succ_mul _ _
  -- Rounding chooses the nearer one of the two multiples around the ratio.
  have chosen : roundHalfEven numerator denominator = numerator / denominator ∧
        2 * (numerator % denominator) ≤ denominator ∨
      roundHalfEven numerator denominator = numerator / denominator + 1 ∧
        denominator ≤ 2 * (numerator % denominator) := by
    rw [roundHalfEven]
    split
    · omega
    · split
      · omega
      · omega
  -- Any other multiple lies beyond one of those two.
  rcases Nat.lt_or_ge (numerator / denominator) count with above | below
  · have far : (numerator / denominator + 1) * denominator ≤ count * denominator :=
      Nat.mul_le_mul_right denominator above
    rcases chosen with ⟨down, near⟩ | ⟨up, near⟩
    · rw [down]
      omega
    · rw [up]
      omega
  · have far := Nat.mul_le_mul_right denominator below
    rcases chosen with ⟨down, near⟩ | ⟨up, near⟩
    · rw [down]
      omega
    · rw [up]
      omega

/-- No magnitude on its own grid is closer to a ratio than the one that it is rounded to. -/
theorem nearestUnits_nearest (numerator : Nat) {denominator units : Nat}
    (positive : 0 < denominator) (grid : spacing units ∣ units) :
    ((nearestUnits numerator denominator * denominator : Nat) - numerator : Int).natAbs ≤
      ((units * denominator : Nat) - numerator : Int).natAbs := by
  have near : ∀ point, spacing (numerator / denominator) ∣ point →
      ((nearestUnits numerator denominator * denominator : Nat) - numerator : Int).natAbs ≤
        ((point * denominator : Nat) - numerator : Int).natAbs := by
    rintro point ⟨count, rfl⟩
    have wide := Nat.mul_pos positive (spacing_pos (numerator / denominator))
    have nearest := roundHalfEven_nearest numerator wide count
    have same (number : Nat) : number * (denominator * spacing (numerator / denominator)) =
        number * spacing (numerator / denominator) * denominator := by ring
    rw [same, same, Nat.mul_comm count] at nearest
    exact nearest
  rcases Nat.lt_or_ge units.log2 (numerator / denominator).log2 with lower | noLower
  · -- A power of two lies between a smaller magnitude and the ratio, on the grid around the ratio.
    have filled : numerator / denominator ≠ 0 := by
      intro none
      rw [none] at lower
      exact absurd lower (Nat.not_lt_zero _)
    have between := Nat.mul_le_mul_right denominator (Nat.le_of_lt (lt_two_pow_of_log2_lt lower))
    have power := (Nat.le_div_iff_mul_le positive).mp (Nat.log2_self_le filled)
    have closer := near _ (Nat.pow_dvd_pow 2 (Nat.sub_le (numerator / denominator).log2 52))
    omega
  · exact near units (Nat.dvd_trans (spacing_dvd noLower) grid)

/-- The magnitude one step in front of another one is on its own grid. -/
theorem spacing_front_dvd {units : Nat} (grid : spacing units ∣ units) :
    spacing (units - spacing units) ∣ units - spacing units := by
  have finer := spacing_dvd (log2_mono (Nat.sub_le units (spacing units)))
  exact Nat.dvd_sub (Nat.dvd_trans finer grid) finer

/-- A number is not rounded up to a magnitude that is more than half a step above it. -/
theorem nearestUnits_lt {numerator units : Nat} (grid : spacing units ∣ units)
    (far : 2 * numerator + spacing units < 2 * units) : nearestUnits numerator 1 < units := by
  -- The magnitude in front is closer to the number.
  have nearest := nearestUnits_nearest numerator Nat.one_pos (spacing_front_dvd grid)
  have step := spacing_pos units
  have apart := spacing_le (show 0 < units by omega)
  generalize spacing units = gap at *
  generalize nearestUnits numerator 1 = rounded at *
  omega

namespace Binary64

/-- How far a finite number is from an integer, in units. -/
def distance? (number : Int) : Binary64 → Option Nat
  | .finite negative units _ =>
    some (signedUnits negative units - number * unitsPerOne).natAbs
  | _ => none

/-- A finite number is nearest to an integer when no finite number is closer to it. -/
def NearestTo (number : Int) (value : Binary64) : Prop :=
  ∃ near, value.distance? number = some near ∧
    ∀ other far, distance? number other = some far → near ≤ far

/-- An integer has the units of its size, with its sign. -/
theorem mul_unitsPerOne (number : Int) :
    number * unitsPerOne = signedUnits (number < 0) (number.natAbs * unitsPerOne) := by
  generalize unitsPerOne = one
  rw [signedUnits, Nat.cast_mul]
  split
  · rename_i negative
    rw [Int.ofNat_natAbs_of_nonpos (Int.le_of_lt (of_decide_eq_true negative)), Int.neg_mul,
      Int.neg_neg]
  · rename_i positive
    rw [Int.natAbs_of_nonneg (Int.not_lt.mp (of_decide_eq_false (Bool.eq_false_iff.mpr positive)))]

/-- Counts are as far from each other as their sizes, or further with unlike signs. -/
theorem natAbs_sub_le_signedUnits (left right : Bool) (units others : Nat) :
    ((units : Int) - others).natAbs ≤
      (signedUnits left units - signedUnits right others).natAbs := by
  unfold signedUnits
  split
  · split
    · omega
    · omega
  · split
    · omega
    · omega

/-- Counts of the same sign are as far from each other as their sizes. -/
theorem natAbs_sub_signedUnits (negative : Bool) (units others : Nat) :
    (signedUnits negative units - signedUnits negative others).natAbs =
      ((units : Int) - others).natAbs := by
  unfold signedUnits
  split
  · omega
  · rfl

/-- An integer that is small enough becomes the number nearest to it. -/
theorem nearestTo_ofInt {number : Int} (small : number.natAbs < 2 ^ 64) :
    NearestTo number (ofInt number) := by
  have finite : (ofInt number).isFinite = true := by
    refine (isFinite_ofRatio_iff Nat.one_pos).mpr ?_
    have room : 64 + 1074 < 2098 := by omega
    unfold unitsPerOne unitsLimit
    generalize 1074 = height at room ⊢
    generalize 2098 = limit at room ⊢
    have bound : number.natAbs * Nat.pow 2 height ≤ 2 ^ (64 + height) * 1 := by
      rw [Nat.mul_one, Nat.pow_add]
      exact Nat.mul_le_mul_right _ (Nat.le_of_lt small)
    exact Nat.lt_of_le_of_lt (nearestUnits_le Nat.one_pos (spacing_two_pow_dvd _) bound)
      (Nat.pow_lt_pow_right (by decide) room)
  obtain ⟨fits, made⟩ := exists_ofRatio finite
  refine ⟨_, by rw [ofInt, made]; rfl, ?_⟩
  intro other far distance
  cases other with
  | nan => cases distance
  | infinity negative => cases distance
  | finite negative units representable =>
    cases distance
    -- The sizes are compared first, and then the signs can only add to the distance.
    rw [mul_unitsPerOne, natAbs_sub_signedUnits]
    refine Nat.le_trans ?_ (natAbs_sub_le_signedUnits negative _ units _)
    have nearest := nearestUnits_nearest (number.natAbs * unitsPerOne) Nat.one_pos
      (Nat.dvd_of_mod_eq_zero representable.2)
    rwa [Nat.mul_one, Nat.mul_one] at nearest

end Binary64

end Placeholder

import Placeholder.Proofs.Decimal.Shortest

/-! Seventeen digits are enough for a decimal that reads back as a magnitude. -/

namespace Placeholder.Decimal

/-- A positive number is at least the power of ten of its leading digit. -/
theorem ten_pow_le {value : Nat} (filled : 0 < value) :
    10 ^ ((Text.decimalDigits value).length - 1) ≤ value := by
  have length : 0 < (Text.decimalDigits value).length := List.length_pos_iff.mpr Nat.toDigits_ne_nil
  rcases Nat.eq_zero_or_pos ((Text.decimalDigits value).length - 1) with single | several
  · rw [single]
    exact filled
  · apply Nat.le_of_not_lt
    intro below
    have short : (Text.decimalDigits value).length ≤ (Text.decimalDigits value).length - 1 :=
      (Nat.length_toDigits_le_iff (by decide) several).mpr below
    omega

/-- A positive magnitude is at least the power of ten of its leading exponent. -/
theorem exists_leadingExponent_le {units : Nat} (filled : 0 < units) :
    ∃ places : Nat, leadingExponent units = places - 330 ∧
      unitsPerOne * 10 ^ places ≤ units * Nat.pow 10 330 := by
  unfold leadingExponent
  have scale := Binary64.unitsPerOne_pos
  have one : unitsPerOne ≤ Nat.pow 10 330 := by decide +kernel
  -- Shifted by 330 places even the least magnitude has a digit in front of the point.
  generalize unitsPerOne = least at scale one ⊢
  generalize Nat.pow 10 330 = power at one ⊢
  have scaled : 0 < units * power / least :=
    Nat.div_pos (Nat.le_trans one (Nat.le_mul_of_pos_left power filled)) scale
  have length : 0 < (Text.decimalDigits (units * power / least)).length :=
    List.length_pos_iff.mpr Nat.toDigits_ne_nil
  have bound := (Nat.le_div_iff_mul_le scale).mp (ten_pow_le scaled)
  rw [Nat.mul_comm] at bound
  exact ⟨_, by omega, bound⟩

/-- The last digit counts for little in a magnitude of seventeen digits. -/
theorem last_digit_le {units : Nat} (filled : 0 < units) {exponent : Int}
    (last : exponent = leadingExponent units - 16) :
    10 ^ 16 * (unitsPerOne * 10 ^ exponent.toNat) ≤ units * 10 ^ (-exponent).toNat := by
  obtain ⟨places, leading, bound⟩ := exists_leadingExponent_le filled
  have sum : (places : Int) = exponent + 16 + (330 : Nat) := by omega
  generalize 330 = extra at sum bound
  rw [Nat.pow_eq] at bound
  -- Both sides are compared with the same power of ten behind them.
  apply Nat.le_of_mul_le_mul_right _ (Nat.pow_pos (show 0 < 10 by decide) : 0 < 10 ^ extra)
  have split : 16 + exponent.toNat + extra = places + (-exponent).toNat := by omega
  calc 10 ^ 16 * (unitsPerOne * 10 ^ exponent.toNat) * 10 ^ extra =
        unitsPerOne * 10 ^ (16 + exponent.toNat + extra) := by
        rw [Nat.pow_add, Nat.pow_add]
        ring
    _ = unitsPerOne * 10 ^ places * 10 ^ (-exponent).toNat := by
        rw [split, Nat.pow_add]
        ring
    _ ≤ units * 10 ^ extra * 10 ^ (-exponent).toNat := Nat.mul_le_mul_right _ bound
    _ = units * 10 ^ (-exponent).toNat * 10 ^ extra := by ring

/-- The ties around a magnitude are further away than half of a small part of it. -/
theorem part_lt_gaps {units part scale : Nat} (positive : 0 < part)
    (small : 10 ^ 16 * part ≤ units * scale) :
    2 * part < gapBelow units * scale ∧ 2 * part < gapAbove units * scale := by
  -- A magnitude has fewer than 2⁵³ steps, and 10¹⁶ is more than that.
  have leading : units < 2 ^ (units.log2 + 1) := Nat.lt_log2_self
  have wide : 2 ^ (units.log2 + 1) ≤ spacing units * 2 ^ 53 := by
    rw [spacing, Nat.pow_eq, ← Nat.pow_add]
    exact Nat.pow_le_pow_right (by decide) (by omega)
  have scaled := Nat.mul_le_mul_right scale (Nat.le_trans (Nat.le_of_lt leading) wide)
  rw [Nat.mul_right_comm] at scaled
  have above : 2 * part < gapAbove units * scale := by
    rw [gapAbove, Nat.mul_assoc]
    omega
  refine ⟨?_, above⟩
  unfold gapBelow
  dsimp only
  split
  · -- A power of two is as many steps as fit below it.
    rename_i edge
    obtain ⟨power, coarse⟩ := edge
    have high : 52 < units.log2 := by
      apply Nat.lt_of_not_le
      intro low
      rw [spacing, Nat.sub_eq_zero_of_le low] at coarse
      exact absurd coarse (Nat.lt_irrefl 1)
    have steps : units = spacing units * 2 ^ 52 := by
      rw [spacing, Nat.pow_eq, ← Nat.pow_add, Nat.sub_add_cancel (Nat.le_of_lt high)]
      exact power
    rw [steps, Nat.mul_right_comm] at small
    omega
  · exact above

/-- A decimal lies strictly between the ties around a magnitude. -/
def Inside (units : Nat) (decimal : Decimal) : Prop :=
  (4 * units - gapBelow units) * (decimal.scaled unitsPerOne).2 <
      4 * (decimal.scaled unitsPerOne).1 ∧
    4 * (decimal.scaled unitsPerOne).1 <
      (4 * units + gapAbove units) * (decimal.scaled unitsPerOne).2

/-- What lies strictly between the ties reads back. -/
theorem Inside.readsBack {units : Nat} {decimal : Decimal} (inside : Inside units decimal) :
    decimal.readsBack units = true := by
  obtain ⟨low, high⟩ := inside
  unfold Decimal.readsBack
  rw [scaled_four]
  dsimp only
  split
  · exact Bool.and_eq_true_iff.mpr
      ⟨decide_eq_true (Nat.le_of_lt low), decide_eq_true (Nat.le_of_lt high)⟩
  · exact Bool.and_eq_true_iff.mpr ⟨decide_eq_true low, decide_eq_true high⟩

/-- Equal ratios are above the same bounds. -/
theorem le_iff_of_equal {numerator denominator other otherDenominator : Nat}
    (positive : 0 < denominator) (otherPositive : 0 < otherDenominator)
    (equal : numerator * otherDenominator = other * denominator) (bound : Nat) :
    bound * denominator ≤ numerator ↔ bound * otherDenominator ≤ other :=
  calc bound * denominator ≤ numerator ↔
        bound * denominator * otherDenominator ≤ numerator * otherDenominator :=
        (Nat.mul_le_mul_right_iff otherPositive).symm
    _ ↔ bound * otherDenominator * denominator ≤ other * denominator := by
        rw [equal, Nat.mul_right_comm]
    _ ↔ bound * otherDenominator ≤ other := Nat.mul_le_mul_right_iff positive

/-- Equal ratios are below the same bounds. -/
theorem ge_iff_of_equal {numerator denominator other otherDenominator : Nat}
    (positive : 0 < denominator) (otherPositive : 0 < otherDenominator)
    (equal : numerator * otherDenominator = other * denominator) (bound : Nat) :
    numerator ≤ bound * denominator ↔ other ≤ bound * otherDenominator :=
  calc numerator ≤ bound * denominator ↔
        numerator * otherDenominator ≤ bound * denominator * otherDenominator :=
        (Nat.mul_le_mul_right_iff otherPositive).symm
    _ ↔ other * denominator ≤ bound * otherDenominator * denominator := by
        rw [equal, Nat.mul_right_comm]
    _ ↔ other ≤ bound * otherDenominator := Nat.mul_le_mul_right_iff positive

/-- Equal decimals read back as the same magnitudes. -/
theorem readsBack_of_equal {decimal other : Decimal}
    (equal : (decimal.scaled unitsPerOne).1 * (other.scaled unitsPerOne).2 =
      (other.scaled unitsPerOne).1 * (decimal.scaled unitsPerOne).2) (units : Nat) :
    decimal.readsBack units = other.readsBack units := by
  have positive := scaled_pos decimal unitsPerOne
  have otherPositive := scaled_pos other unitsPerOne
  have quarters : 4 * (decimal.scaled unitsPerOne).1 * (other.scaled unitsPerOne).2 =
      4 * (other.scaled unitsPerOne).1 * (decimal.scaled unitsPerOne).2 := by
    rw [Nat.mul_assoc, equal, Nat.mul_assoc]
  -- All comparisons are with bounds that depend on the magnitude only.
  have above := le_iff_of_equal positive otherPositive quarters
  have below := ge_iff_of_equal positive otherPositive quarters
  unfold Decimal.readsBack
  rw [scaled_four, scaled_four]
  simp only [← Nat.not_le, above, below]

/-- The decimal next above is equal to the one with a significand one higher. -/
theorem nextAbove_equal (below : Nat) (exponent : Int) (digits factor : Nat) :
    ((Decimal.mk (below + 1) exponent).scaled factor).1 *
        ((nextAbove below exponent digits).scaled factor).2 =
      ((nextAbove below exponent digits).scaled factor).1 *
        ((Decimal.mk (below + 1) exponent).scaled factor).2 := by
  unfold nextAbove
  split
  · -- A carry moves the point behind all digits, which may pass the one of the whole numbers.
    rename_i carry
    rw [carry]
    unfold Decimal.scaled
    dsimp only
    simp only [Nat.pow_eq, Nat.one_mul]
    by_cases whole : 0 ≤ exponent
    · have split : (exponent + digits).toNat = digits + exponent.toNat := by omega
      rw [if_pos whole, if_pos (by omega), split, Nat.pow_add]
    · rw [if_neg whole]
      by_cases passed : 0 ≤ exponent + digits
      · have split : digits = (exponent + digits).toNat + (-exponent).toNat := by omega
        rw [if_pos passed]
        dsimp only
        rw [Nat.mul_one, Nat.mul_right_comm, ← Nat.pow_add, ← split]
      · have split : (-exponent).toNat = digits + (-(exponent + digits)).toNat := by omega
        rw [if_neg passed]
        dsimp only
        rw [split, Nat.pow_add]
        ring
  · rfl

/-- Of the two decimals around a magnitude one lies between its ties, if the places are fine. -/
theorem inside_around {units : Nat} {exponent : Int}
    (fine : 10 ^ 16 * (unitsPerOne * 10 ^ exponent.toNat) ≤ units * 10 ^ (-exponent).toNat)
    {below : Nat}
    (floor : below = units * 10 ^ (-exponent).toNat / (unitsPerOne * 10 ^ exponent.toNat)) :
    Inside units ⟨below, exponent⟩ ∨ Inside units ⟨below + 1, exponent⟩ := by
  have positive : 0 < unitsPerOne * 10 ^ exponent.toNat :=
    Nat.mul_pos Binary64.unitsPerOne_pos (Nat.pow_pos (by decide))
  obtain ⟨gapDown, gapUp⟩ := part_lt_gaps positive fine
  have whole := Nat.div_add_mod (units * 10 ^ (-exponent).toNat) (unitsPerOne * 10 ^ exponent.toNat)
  have rest := Nat.mod_lt (units * 10 ^ (-exponent).toNat) positive
  rw [← floor] at whole
  -- With a common denominator only the whole part and the remainder of the units matter.
  have ratio : ∀ significand, ((Decimal.mk significand exponent).scaled unitsPerOne) =
      (unitsPerOne * 10 ^ exponent.toNat * significand, 10 ^ (-exponent).toNat) := by
    intro significand
    unfold Decimal.scaled
    dsimp only
    split
    · rename_i whole
      rw [Int.toNat_of_nonpos (Int.neg_nonpos_of_nonneg whole), Nat.mul_comm unitsPerOne,
        Nat.mul_comm _ significand, Nat.mul_assoc]
      rfl
    · rename_i beneath
      rw [Int.toNat_of_nonpos (Int.le_of_lt (Int.not_le.mp beneath)), Nat.pow_zero, Nat.mul_one,
        Nat.mul_comm]
      rfl
  unfold Inside
  simp only [ratio, Nat.sub_mul, Nat.add_mul, Nat.mul_assoc 4, Nat.mul_succ]
  omega

/-- A decimal is found when one of the two around a magnitude reads back. -/
theorem exists_nearest? (tie : Tie) {units digits : Nat} {exponent : Int} {below : Nat}
    (floor : below = units * 10 ^ (-exponent).toNat / (unitsPerOne * 10 ^ exponent.toNat))
    (reads : readsBack units ⟨below, exponent⟩ = true ∨
      readsBack units (nextAbove below exponent digits) = true) :
    ∃ decimal, nearest? tie units exponent digits = some decimal := by
  apply Option.isSome_iff_exists.mp
  unfold nearest?
  by_cases whole : 0 ≤ exponent
  · rw [Int.toNat_of_nonpos (Int.neg_nonpos_of_nonneg whole), Nat.pow_zero, Nat.mul_one] at floor
    rw [if_pos whole]
    dsimp only
    rw [Nat.pow_eq, ← floor]
    exact choice_isSome reads
  · have plain : unitsPerOne * 10 ^ exponent.toNat = unitsPerOne := by
      rw [Int.toNat_of_nonpos (Int.le_of_lt (Int.not_le.mp whole)), Nat.pow_zero, Nat.mul_one]
    rw [plain] at floor
    rw [if_neg whole]
    dsimp only
    rw [Nat.pow_eq, ← floor]
    exact choice_isSome reads

/-- The shortest decimal of a positive magnitude spells it. -/
theorem spells_shortest (tie : Tie) {units : Nat} (filled : 0 < units) :
    Spells units (shortest tie units) := by
  unfold shortest
  dsimp only
  cases found : (List.range 17).findSome? fun further =>
      nearest? tie units (leadingExponent units - (further : Nat)) (further + 1) with
  | some decimal =>
    obtain ⟨further, member, nearest⟩ := List.exists_of_findSome?_eq_some found
    exact spells_of_nearest? (List.mem_range.mp member) nearest
  | none =>
    -- The last length that is tried always has a decimal.
    have last := List.findSome?_eq_none_iff.mp found 16 (by decide)
    have around := inside_around (last_digit_le filled rfl) rfl
    obtain ⟨decimal, nearest⟩ := @exists_nearest? tie units 17 _ _ rfl
      (around.imp Inside.readsBack fun inside =>
        (readsBack_of_equal (nextAbove_equal _ _ 17 unitsPerOne) units).symm.trans inside.readsBack)
    have same := nearest.symm.trans last
    cases same

end Placeholder.Decimal

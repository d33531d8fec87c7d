import Placeholder.Proofs.Decimal.Shortest

/-! A ratio between the ties around a magnitude is rounded to that magnitude. -/

namespace Placeholder

section
variable {numerator denominator units : Nat}

/-- A ratio from a magnitude up to its upper tie has the grid of the magnitude around it. -/
theorem spacing_above (positive : 0 < denominator) (filled : 0 < units)
    (grid : spacing units ∣ units) (above : units * denominator ≤ numerator)
    (upper : 4 * numerator ≤ 4 * (units * denominator) + 2 * (spacing units * denominator)) :
    spacing (numerator / denominator) = spacing units := by
  have low : 2 ^ units.log2 ≤ units := Nat.log2_self_le (Nat.ne_of_gt filled)
  have high : units + spacing units ≤ 2 ^ (units.log2 + 1) :=
    add_spacing_le grid (Nat.pow_dvd_pow 2 (by omega)) Nat.lt_log2_self
  have beyond : numerator < (units + spacing units) * denominator := by
    have step := Nat.mul_pos (spacing_pos units) positive
    rw [Nat.add_mul]
    omega
  apply spacing_eq_of_between
  · exact Nat.le_trans low ((Nat.le_div_iff_mul_le positive).mpr above)
  · exact Nat.lt_of_lt_of_le ((Nat.div_lt_iff_lt_mul positive).mpr beyond) high

/-- A ratio from below a magnitude has its grid around it, if the magnitude starts no grid. -/
theorem spacing_below (positive : 0 < denominator) (filled : 0 < units)
    (grid : spacing units ∣ units) (below : numerator < units * denominator)
    (lower : 4 * (units * denominator) ≤ 4 * numerator + 2 * (spacing units * denominator))
    (within : ¬ (units = 2 ^ units.log2 ∧ 1 < spacing units)) :
    spacing (numerator / denominator) = spacing units := by
  have floor := (Nat.div_lt_iff_lt_mul positive).mpr below
  by_cases power : units = 2 ^ units.log2
  · -- The finest grid does not become finer below a power of two.
    have finest : units.log2 - 52 = 0 := by
      apply Nat.eq_zero_of_not_pos
      intro coarse
      exact within ⟨power, Nat.one_lt_two_pow (Nat.ne_of_gt coarse)⟩
    have order := log2_mono (Nat.le_of_lt floor)
    rw [spacing, spacing, finest, Nat.sub_eq_zero_of_le (by omega)]
  · have low : 2 ^ units.log2 ≤ units := Nat.log2_self_le (Nat.ne_of_gt filled)
    have apart := Nat.dvd_sub grid
      (show spacing units ∣ 2 ^ units.log2 from Nat.pow_dvd_pow 2 (Nat.sub_le _ _))
    have step := Nat.le_of_dvd (by omega) apart
    have reached : 2 ^ units.log2 * denominator ≤ numerator := by
      have scaled := Nat.mul_le_mul_right denominator
        (show 2 ^ units.log2 + spacing units ≤ units by omega)
      rw [Nat.add_mul] at scaled
      omega
    apply spacing_eq_of_between
    · exact (Nat.le_div_iff_mul_le positive).mpr reached
    · exact Nat.lt_trans floor Nat.lt_log2_self

/-- A ratio right below a power of two has half the steps of the power around it. -/
theorem spacing_edge (positive : 0 < denominator) {height : Nat} (power : units = 2 ^ (height + 53))
    (below : numerator < units * denominator)
    (lower : 4 * (units * denominator) ≤ 4 * numerator + spacing units * denominator) :
    spacing (numerator / denominator) = 2 ^ height := by
  have floor := (Nat.div_lt_iff_lt_mul positive).mpr below
  have filled : 0 < units := power ▸ Nat.two_pow_pos _
  have twice : units = 2 * 2 ^ (height + 52) := by
    rw [power, Nat.pow_succ, Nat.mul_comm]
  have reached : 2 ^ (height + 52) * denominator ≤ numerator := by
    have steps := Nat.mul_le_mul_right denominator (spacing_le filled)
    rw [twice, Nat.mul_assoc] at steps lower
    omega
  rw [power] at floor
  exact spacing_eq_of_between ((Nat.le_div_iff_mul_le positive).mpr reached) floor

/-- A ratio from a magnitude up to its upper tie is rounded to the magnitude. -/
theorem nearestUnits_above (positive : 0 < denominator) (filled : 0 < units)
    (grid : spacing units ∣ units) (above : units * denominator ≤ numerator)
    (upper : 4 * numerator ≤ 4 * (units * denominator) + 2 * (spacing units * denominator))
    (inside : units / spacing units % 2 = 0 ∨
      4 * numerator < 4 * (units * denominator) + 2 * (spacing units * denominator)) :
    nearestUnits numerator denominator = units := by
  have around := spacing_above positive filled grid above upper
  have whole : spacing units * (units / spacing units) = units := Nat.mul_div_cancel' grid
  have step := Nat.mul_pos (spacing_pos units) positive
  refine (nearestUnits_eq_of_spacing positive around ?_ ?_ ?_).trans whole
  all_goals
    rw [whole]
    omega

/-- A ratio from its lower tie up to a magnitude is rounded to it, if it starts no grid. -/
theorem nearestUnits_below (positive : 0 < denominator) (filled : 0 < units)
    (grid : spacing units ∣ units) (below : numerator < units * denominator)
    (lower : 4 * (units * denominator) ≤ 4 * numerator + 2 * (spacing units * denominator))
    (within : ¬ (units = 2 ^ units.log2 ∧ 1 < spacing units))
    (inside : units / spacing units % 2 = 0 ∨
      4 * (units * denominator) < 4 * numerator + 2 * (spacing units * denominator)) :
    nearestUnits numerator denominator = units := by
  have around := spacing_below positive filled grid below lower within
  have whole : spacing units * (units / spacing units) = units := Nat.mul_div_cancel' grid
  have step := Nat.mul_pos (spacing_pos units) positive
  refine (nearestUnits_eq_of_spacing positive around ?_ ?_ ?_).trans whole
  all_goals
    rw [whole]
    omega

/-- A ratio from its lower tie up to a power of two is rounded to the power. -/
theorem nearestUnits_edge (positive : 0 < denominator) (power : units = 2 ^ units.log2)
    (coarse : 1 < spacing units) (below : numerator < units * denominator)
    (lower : 4 * (units * denominator) ≤ 4 * numerator + spacing units * denominator) :
    nearestUnits numerator denominator = units := by
  have high : 53 ≤ units.log2 := by
    apply Nat.le_of_not_lt
    intro low
    rw [spacing, Nat.sub_eq_zero_of_le (Nat.le_of_lt_succ low)] at coarse
    exact absurd coarse (Nat.lt_irrefl 1)
  obtain ⟨height, leading⟩ := Nat.exists_eq_add_of_le' high
  rw [leading] at power
  have around := spacing_edge positive power below lower
  -- The power is a whole number of the finer steps below it, and an even one.
  have double : spacing units = 2 * 2 ^ height := by
    rw [spacing, leading, Nat.add_sub_assoc (by decide)]
    exact Nat.pow_succ'
  have steps : spacing units * denominator = 2 * (2 ^ height * denominator) := by
    rw [double, Nat.mul_assoc]
  have point : 2 ^ height * 2 ^ 53 = units := by
    rw [power, Nat.pow_add]
  refine (nearestUnits_eq_of_spacing positive around ?_ ?_ (Or.inl rfl)).trans point
  · rw [point]
    omega
  · rw [point]
    omega

/-- A ratio between the ties around a magnitude is rounded to it, at a tie if it is even. -/
theorem nearestUnits_eq (positive : 0 < denominator) (filled : 0 < units)
    (grid : spacing units ∣ units)
    (lower : (4 * units - Decimal.gapBelow units) * denominator ≤ 4 * numerator)
    (upper : 4 * numerator ≤ (4 * units + Decimal.gapAbove units) * denominator)
    (inside : units / spacing units % 2 = 0 ∨
      (4 * units - Decimal.gapBelow units) * denominator < 4 * numerator ∧
        4 * numerator < (4 * units + Decimal.gapAbove units) * denominator) :
    nearestUnits numerator denominator = units := by
  rw [Decimal.gapAbove, Nat.add_mul, Nat.mul_assoc, Nat.mul_assoc] at upper inside
  rw [Nat.sub_mul, Nat.mul_assoc] at lower inside
  unfold Decimal.gapBelow at lower inside
  dsimp only at lower inside
  rcases Nat.lt_or_ge numerator (units * denominator) with below | above
  · -- The lower tie is twice as near to a power of two.
    split at lower
    · rename_i edge
      exact nearestUnits_edge positive edge.1 edge.2 below (by omega)
    · rename_i within
      rw [if_neg within] at inside
      rw [Nat.mul_assoc] at lower inside
      exact nearestUnits_below positive filled grid below (by omega) within (by omega)
  · exact nearestUnits_above positive filled grid above upper (inside.imp_right And.right)

end

namespace Decimal

/-- A decimal that reads back is rounded to the magnitude that it stands for. -/
theorem nearestUnits_of_readsBack {units : Nat} {decimal : Decimal} (fits : Representable units)
    (filled : 0 < units) (reads : decimal.readsBack units = true) :
    nearestUnits (decimal.scaled unitsPerOne).1 (decimal.scaled unitsPerOne).2 = units := by
  unfold readsBack at reads
  rw [scaled_four] at reads
  have positive := scaled_pos decimal unitsPerOne
  dsimp only at reads
  have grid := Nat.dvd_of_mod_eq_zero fits.2
  -- Even magnitudes take in their ties, and odd ones leave them out.
  split at reads
  · rename_i even
    have between := Bool.and_eq_true_iff.mp reads
    exact nearestUnits_eq positive filled grid (of_decide_eq_true between.1)
      (of_decide_eq_true between.2) (Or.inl even)
  · have between := Bool.and_eq_true_iff.mp reads
    have low := of_decide_eq_true between.1
    have high := of_decide_eq_true between.2
    exact nearestUnits_eq positive filled grid (Nat.le_of_lt low) (Nat.le_of_lt high)
      (Or.inr ⟨low, high⟩)

end Decimal

end Placeholder

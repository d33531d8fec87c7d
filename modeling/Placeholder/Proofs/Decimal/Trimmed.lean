import Placeholder.Proofs.Decimal.Enough

/-! Shortest decimals do not end in a zero, since a shorter one would do without it. -/

namespace Placeholder.Decimal

/-- A zero at the end is as good as a higher exponent. -/
theorem scaled_tenfold (significand : Nat) (exponent : Int) (factor : Nat) :
    ((Decimal.mk (10 * significand) exponent).scaled factor).1 *
        ((Decimal.mk significand (exponent + 1)).scaled factor).2 =
      ((Decimal.mk significand (exponent + 1)).scaled factor).1 *
        ((Decimal.mk (10 * significand) exponent).scaled factor).2 := by
  unfold Decimal.scaled
  dsimp only
  simp only [Nat.pow_eq]
  by_cases whole : 0 ≤ exponent
  · have next : (exponent + 1).toNat = exponent.toNat + 1 := by omega
    rw [if_pos whole, if_pos (by omega), next, Nat.pow_succ]
    ring
  · rw [if_neg whole]
    have next : (-exponent).toNat = (-(exponent + 1)).toNat + 1 := by omega
    by_cases last : 0 ≤ exponent + 1
    · -- Only the exponent right below zero turns into zero.
      have one : (exponent + 1).toNat = 0 ∧ (-(exponent + 1)).toNat = 0 := by omega
      rw [if_pos last, next, one.1, one.2]
      ring
    · rw [if_neg last, next, Nat.pow_succ]
      ring

/-- The digits down to an exponent are those down to the next higher one and one more. -/
theorem floor_tenth (units : Nat) (exponent : Int) :
    units * 10 ^ (-(exponent + 1)).toNat / (unitsPerOne * 10 ^ (exponent + 1).toNat) =
      units * 10 ^ (-exponent).toNat / (unitsPerOne * 10 ^ exponent.toNat) / 10 := by
  generalize unitsPerOne = one
  rw [Nat.div_div_eq_div_mul]
  by_cases whole : 0 ≤ exponent
  · have next : (exponent + 1).toNat = exponent.toNat + 1 := by omega
    have none : (-(exponent + 1)).toNat = (-exponent).toNat := by omega
    rw [next, none, Nat.pow_succ, ← Nat.mul_assoc]
  · have next : (-exponent).toNat = (-(exponent + 1)).toNat + 1 := by omega
    have none : (exponent + 1).toNat = exponent.toNat := by omega
    rw [next, none, Nat.pow_succ, ← Nat.mul_assoc, Nat.mul_div_mul_right _ _ (by decide)]

/-- The digits down to an exponent, whatever its sign. -/
theorem floor_eq (units : Nat) (exponent : Int) :
    (if 0 ≤ exponent then units / (unitsPerOne * Nat.pow 10 exponent.toNat)
      else units * Nat.pow 10 (-exponent).toNat / unitsPerOne) =
      units * 10 ^ (-exponent).toNat / (unitsPerOne * 10 ^ exponent.toNat) := by
  generalize unitsPerOne = one
  split
  · rename_i whole
    rw [Int.toNat_of_nonpos (Int.neg_nonpos_of_nonneg whole), Nat.pow_zero, Nat.mul_one, Nat.pow_eq]
  · rename_i beneath
    rw [Int.toNat_of_nonpos (Int.le_of_lt (Int.not_le.mp beneath)), Nat.pow_zero, Nat.mul_one,
      Nat.pow_eq]

/-- Where a decimal with a zero at the end is found, one is found with a digit less. -/
theorem exists_nearest?_shorter {tie : Tie} {units digits : Nat} {exponent : Int}
    {decimal : Decimal} (found : nearest? tie units exponent (digits + 1) = some decimal)
    (zero : decimal.significand % 10 = 0) :
    ∃ shorter, nearest? tie units (exponent + 1) digits = some shorter := by
  obtain ⟨reads, below, floor, choice⟩ := nearest?_cases found
  rw [floor_eq] at floor
  have coarse := floor_tenth units exponent
  rw [← floor] at coarse
  apply exists_nearest? tie coarse.symm
  rcases choice with rfl | rfl
  · -- The decimal below ends in a zero, so it is the one below with a digit less.
    left
    have whole : 10 * (below / 10) = below := Nat.mul_div_cancel' (Nat.dvd_of_mod_eq_zero zero)
    rw [← readsBack_of_equal (scaled_tenfold _ exponent unitsPerOne), whole]
    exact reads
  · -- The decimal above does, so it is the one above with a digit less, carry or not.
    right
    unfold nextAbove at reads zero
    split at zero
    · cases zero
    · rename_i noCarry
      rw [if_neg noCarry] at reads
      have whole : 10 * (below / 10 + 1) = below + 1 := by
        dsimp only at zero
        omega
      rw [← readsBack_of_equal (nextAbove_equal _ _ digits unitsPerOne),
        ← readsBack_of_equal (scaled_tenfold _ exponent unitsPerOne), whole]
      exact reads

/-- The shortest decimal is found at some length, and none is found at any shorter one. -/
theorem exists_length_shortest (tie : Tie) {units : Nat} (filled : 0 < units) :
    ∃ further < 17,
      nearest? tie units (leadingExponent units - (further : Nat)) (further + 1) =
        some (shortest tie units) ∧
      ∀ earlier < further,
        nearest? tie units (leadingExponent units - (earlier : Nat)) (earlier + 1) = none := by
  have positive := (spells_shortest tie filled).positive filled
  unfold shortest at positive ⊢
  dsimp only at positive ⊢
  cases found : (List.range 17).findSome? fun further =>
      nearest? tie units (leadingExponent units - (further : Nat)) (further + 1) with
  | none =>
    rw [found] at positive
    exact absurd positive (Nat.lt_irrefl 0)
  | some decimal =>
    obtain ⟨before, further, behind, split, nearest, first⟩ := List.findSome?_eq_some_iff.mp found
    have few : further < 17 := List.mem_range.mp (split ▸ List.mem_append_cons_self)
    refine ⟨further, few, nearest, ?_⟩
    intro earlier lower
    -- Lengths are tried in increasing order, so what is shorter has been tried before.
    have order : (before ++ further :: behind).Pairwise (· < ·) := split ▸ List.pairwise_lt_range
    have tried : earlier ∈ before ++ further :: behind :=
      split ▸ List.mem_range.mpr (Nat.lt_trans lower few)
    rcases List.mem_append.mp tried with member | later
    · exact first earlier member
    · have above := (List.pairwise_cons.mp (List.pairwise_append.mp order).2.1).1
      rcases List.mem_cons.mp later with rfl | member
      · exact absurd lower (Nat.lt_irrefl _)
      · exact absurd lower (Nat.not_lt.mpr (Nat.le_of_lt (above earlier member)))

/-- Shortest decimals do not end in a zero. -/
theorem shortest_mod_ten (tie : Tie) {units : Nat} (filled : 0 < units) :
    (shortest tie units).significand % 10 ≠ 0 := by
  obtain ⟨further, few, found, first⟩ := exists_length_shortest tie filled
  intro zero
  cases further with
  | zero =>
    -- A single digit that is zero would be zero.
    have places :
        leadingExponent units + 1 = leadingExponent units - (0 : Nat) + (0 + 1 : Nat) := by
      omega
    have short := (nearest?_short Nat.one_pos places found).1
    have positive := (spells_shortest tie filled).positive filled
    omega
  | succ further =>
    obtain ⟨shorter, nearest⟩ := exists_nearest?_shorter found zero
    have next : leadingExponent units - (further + 1 : Nat) + 1 =
        leadingExponent units - (further : Nat) := by omega
    rw [next, first further (Nat.lt_succ_self further)] at nearest
    cases nearest

end Placeholder.Decimal

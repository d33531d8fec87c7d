import Placeholder.Proofs.Decimal.Enough

/-! The digits of a large magnitude times their power of ten do not overflow. -/

namespace Placeholder.Decimal

/-- The tie between the largest finite number and the power of two above it. -/
def overflowTie : Nat :=
  Nat.pow 2 1024 - Nat.pow 2 970

/-- The largest magnitude. -/
def largestUnits : Nat :=
  unitsLimit - Nat.pow 2 2045

/-- The units of a significand and of a power of ten, each rounded, in one rounded product. -/
def productUnits (significand exponent : Nat) : Nat :=
  nearestUnits (nearestUnits (significand * unitsPerOne) 1 *
    nearestUnits (Nat.pow 10 exponent * unitsPerOne) 1) unitsPerOne

/-- The largest significand of at most seventeen digits at one of the highest exponents. -/
def largestSignificand (exponent : Nat) : Nat :=
  -- One more would still read back at the first exponent, but is not the nearest that does.
  if exponent = 292 then 17976931348623157 else overflowTie / Nat.pow 10 exponent

/-- Smaller significands and exponents have smaller products. -/
theorem productUnits_mono {small large low high : Nat} (significands : small ≤ large)
    (exponents : low ≤ high) : productUnits small low ≤ productUnits large high := by
  have powers : Nat.pow 10 low ≤ Nat.pow 10 high := Nat.pow_le_pow_right (by decide) exponents
  exact nearestUnits_mono Binary64.unitsPerOne_pos (Nat.mul_le_mul
    (nearestUnits_mono Nat.one_pos (Nat.mul_le_mul_right unitsPerOne significands))
    (nearestUnits_mono Nat.one_pos (Nat.mul_le_mul_right unitsPerOne powers)))

/-- Seventeen digits do not overflow below the highest exponents. -/
theorem productUnits_low : productUnits (Nat.pow 10 17) 291 < unitsLimit := by
  decide +kernel

/-- The largest significands at the highest exponents do not overflow. -/
theorem productUnits_high : ∀ place < 17,
    productUnits (largestSignificand (292 + place)) (292 + place) < unitsLimit := by
  decide +kernel

/-- The largest magnitude has the shortest decimal with the smaller of two significands. -/
theorem shortest_largest : shortest .even largestUnits = ⟨17976931348623157, 292⟩ := by
  decide +kernel

/-- Half of the limit of magnitudes, from which on neighbours are as far apart as anywhere. -/
def halfLimit : Nat :=
  Nat.pow 2 2097

/-- The largest distance of two neighbours. -/
def widestStep : Nat :=
  Nat.pow 2 2045

/-- The limit of magnitudes and the tie below it in terms of the widest steps. -/
theorem limits : unitsLimit = 2 * halfLimit ∧ 8 * widestStep ≤ halfLimit ∧
    unitsLimit = widestStep * 2 ^ 53 ∧ largestUnits = unitsLimit - widestStep ∧
    4 * unitsLimit - 2 * widestStep = overflowTie * (4 * unitsPerOne) := by
  decide +kernel

/-- The larger of two significands at the same exponent is above all ties but the last one. -/
theorem last_tie : 4 * unitsLimit - 6 * widestStep <
    17976931348623158 * 10 ^ 292 * (4 * unitsPerOne) := by
  decide +kernel

/-- Magnitudes have a leading bit below that of the limit. -/
theorem log2_lt_limit {units : Nat} (below : units < unitsLimit) : units.log2 < 2098 := by
  unfold unitsLimit at below
  generalize sameHeight : 2098 = height at below ⊢
  by_cases none : units = 0
  · rw [none, ← sameHeight]
    decide
  · exact (Nat.log2_lt none).mpr below

/-- Neighbours are nowhere further apart than among the largest magnitudes. -/
theorem spacing_le_widest {units : Nat} (below : units < unitsLimit) :
    spacing units ≤ widestStep := by
  have leading := log2_lt_limit below
  have narrow : units.log2 - 52 ≤ 2045 := by omega
  unfold spacing widestStep
  generalize 2045 = height at narrow ⊢
  exact Nat.pow_le_pow_right (by decide) narrow

/-- Magnitudes of the upper half are in steps of one width. -/
theorem spacing_upper {units : Nat} (above : halfLimit ≤ units) (below : units < unitsLimit) :
    spacing units = widestStep := by
  have leading := log2_lt_limit below
  have reached : 2097 ≤ units.log2 := by
    apply Nat.le_of_not_lt
    intro lower
    unfold halfLimit at above
    generalize 2097 = height at above lower
    exact absurd (lt_two_pow_of_log2_lt lower) (Nat.not_lt.mpr above)
  have height : units.log2 - 52 = 2045 := by omega
  unfold spacing widestStep
  generalize 2045 = places at height ⊢
  rw [height]

/-- The upper tie of a magnitude is no higher than the one of the largest. -/
theorem upper_tie_le {units : Nat} (fits : Representable units) :
    4 * units + 2 * spacing units ≤ 4 * unitsLimit - 2 * widestStep ∧
      (units ≠ largestUnits →
        4 * units + 2 * spacing units ≤ 4 * unitsLimit - 6 * widestStep) := by
  obtain ⟨twice, narrow, steps, last, -⟩ := limits
  have below := fits.1
  by_cases upper : halfLimit ≤ units
  · -- There are only whole steps between a magnitude of the upper half and the limit.
    have step := spacing_upper upper below
    obtain ⟨count, whole⟩ := Nat.dvd_of_mod_eq_zero fits.2
    rw [step] at whole ⊢
    have counted : count < 2 ^ 53 := by
      rw [whole, steps] at below
      exact Nat.lt_of_mul_lt_mul_left below
    have room := Nat.mul_le_mul_left widestStep (Nat.succ_le_of_lt counted)
    rw [Nat.mul_succ, ← whole, ← steps] at room
    refine ⟨by omega, fun other => ?_⟩
    have further : count + 2 ≤ 2 ^ 53 := by
      apply Nat.lt_of_le_of_ne counted
      intro final
      rw [← final, Nat.mul_succ, ← whole] at steps
      omega
    have more := Nat.mul_le_mul_left widestStep further
    rw [Nat.mul_add, ← whole, ← steps] at more
    omega
  · have step := spacing_le_widest below
    omega

section
variable {units : Nat} {decimal : Decimal}

/-- A whole shortest decimal is at most the tie below the limit, and one less at one exponent. -/
theorem significand_le (fits : Representable units) (positive : 0 < units)
    (shortest : decimal = shortest .even units) (whole : 0 ≤ decimal.exponent) :
    decimal.significand ≤ overflowTie / Nat.pow 10 decimal.exponent.toNat ∧
      (decimal.exponent = 292 → decimal.significand ≤ 17976931348623157) := by
  have spells : Spells units decimal := shortest ▸ spells_shortest .even positive
  have upper := spells.upper whole
  obtain ⟨bound, others⟩ := upper_tie_le fits
  obtain ⟨-, -, -, -, tie⟩ := limits
  have scale : 0 < 4 * unitsPerOne := Nat.mul_pos (by decide) Binary64.unitsPerOne_pos
  have below : decimal.significand * 10 ^ decimal.exponent.toNat ≤ overflowTie := by
    rw [tie] at bound
    exact Nat.le_of_mul_le_mul_right (Nat.le_trans upper bound) scale
  have power : 0 < 10 ^ decimal.exponent.toNat := Nat.pow_pos (by decide)
  refine ⟨(Nat.le_div_iff_mul_le power).mpr below, fun exponent => ?_⟩
  -- A larger significand would belong to the largest magnitude, which has another one.
  by_cases largest : units = largestUnits
  · rw [shortest, largest, shortest_largest]
  · apply Nat.le_of_not_lt
    intro above
    have atLeast := Nat.mul_le_mul_right (4 * unitsPerOne)
      (Nat.mul_le_mul_right (10 ^ 292) (Nat.succ_le_of_lt above))
    have same : decimal.exponent.toNat = 292 := by omega
    rw [same] at upper
    have high := last_tie
    have low := others largest
    omega

/-- A whole shortest decimal has an exponent that a single digit can have. -/
theorem exponent_lt (fits : Representable units) (positive : 0 < units)
    (shortest : decimal = shortest .even units) (whole : 0 ≤ decimal.exponent) :
    decimal.exponent.toNat < 309 := by
  have spells : Spells units decimal := shortest ▸ spells_shortest .even positive
  have digit := spells.positive positive
  have bound := (significand_le fits positive shortest whole).1
  -- At a higher exponent a single digit would be above the tie below the limit.
  apply Nat.lt_of_not_le
  intro beyond
  have small : overflowTie < Nat.pow 10 309 := by decide +kernel
  generalize 309 = height at small beyond
  have powers : Nat.pow 10 height ≤ Nat.pow 10 decimal.exponent.toNat :=
    Nat.pow_le_pow_right (by decide) beyond
  have none : overflowTie / Nat.pow 10 decimal.exponent.toNat = 0 :=
    Nat.div_eq_of_lt (Nat.lt_of_lt_of_le small powers)
  omega

/-- The two factors of a whole shortest decimal have a product below the limit. -/
theorem productUnits_lt (fits : Representable units) (positive : 0 < units)
    (shortest : decimal = shortest .even units) (whole : 0 ≤ decimal.exponent) :
    productUnits decimal.significand decimal.exponent.toNat < unitsLimit := by
  have few := exponent_lt fits positive shortest whole
  obtain ⟨bound, exception⟩ := significand_le fits positive shortest whole
  rcases Nat.lt_or_ge 291 decimal.exponent.toNat with high | low
  · -- At each of the highest exponents there is a largest significand.
    have largest := productUnits_high (decimal.exponent.toNat - 292) (by omega)
    have place : 292 + (decimal.exponent.toNat - 292) = decimal.exponent.toNat := by omega
    rw [place] at largest
    refine Nat.lt_of_le_of_lt (productUnits_mono ?_ (Nat.le_refl _)) largest
    unfold largestSignificand
    split
    · rename_i same
      exact exception (by omega)
    · exact bound
  · have spells : Spells units decimal := shortest ▸ spells_shortest .even positive
    exact Nat.lt_of_le_of_lt (productUnits_mono (Nat.le_of_lt spells.short) low) productUnits_low

end

/-- The factors of these products do not overflow either. -/
theorem factors_lt : nearestUnits (Nat.pow 10 17 * unitsPerOne) 1 < unitsLimit ∧
    nearestUnits (Nat.pow 10 308 * unitsPerOne) 1 < unitsLimit := by
  decide +kernel

/-- A power of ten is read as its nearest number. -/
theorem ofDecimal_one {exponent : Nat} (few : exponent ≤ 400) :
    Binary64.ofDecimal false 1 exponent =
      .ofRatio false (Nat.pow 10 exponent * unitsPerOne) 1 := by
  have high : ¬ (400 : Int) < exponent := by omega
  have low : ¬ (exponent : Int) + (Nat.log2 1 : Nat) < -400 := by omega
  rw [Binary64.ofDecimal, if_neg Nat.one_ne_zero, if_neg high, if_neg low,
    if_pos (Int.natCast_nonneg exponent), Nat.one_mul, Int.toNat_natCast]

/-- A product of a significand and a power of ten is finite below the limit. -/
theorem isFinite_mul_power {significand exponent : Nat} (short : significand < 10 ^ 17)
    (few : exponent < 309) (small : productUnits significand exponent < unitsLimit) :
    (Binary64.ofInt significand * Binary64.ofDecimal false 1 exponent).isFinite = true := by
  -- Only finite factors have a product that is rounded from their units.
  have digits : (Binary64.ofInt significand).isFinite = true := by
    refine (Binary64.isFinite_ofRatio_iff Nat.one_pos).mpr (Nat.lt_of_le_of_lt ?_ factors_lt.1)
    exact nearestUnits_mono Nat.one_pos (Nat.mul_le_mul_right _ (Nat.le_of_lt short))
  have power : (Binary64.ofDecimal false 1 exponent).isFinite = true := by
    have highest := factors_lt.2
    have last := Nat.le_of_lt_succ few
    rw [ofDecimal_one (by omega)]
    generalize 308 = height at highest last
    have powers : Nat.pow 10 exponent ≤ Nat.pow 10 height :=
      Nat.pow_le_pow_right (by decide) last
    refine (Binary64.isFinite_ofRatio_iff Nat.one_pos).mpr (Nat.lt_of_le_of_lt ?_ highest)
    exact nearestUnits_mono Nat.one_pos (Nat.mul_le_mul_right _ powers)
  rw [ofDecimal_one (by omega)] at power ⊢
  obtain ⟨fits, form⟩ := Binary64.exists_ofRatio digits
  obtain ⟨powerFits, powerForm⟩ := Binary64.exists_ofRatio power
  rw [Binary64.ofInt, form, powerForm, Binary64.mul_finite,
    Binary64.isFinite_ofRatio_iff Binary64.unitsPerOne_pos]
  exact small

end Placeholder.Decimal

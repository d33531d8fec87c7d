import Placeholder.Proofs.Decimal.Nearest
import Placeholder.Proofs.Value.Floats

/-! Short floats are read exactly, since no more than one rounding takes part in it. -/

namespace Placeholder

namespace Binary64

/-- Small powers of ten are on their own grid. -/
theorem representable_power : ∀ exponent < 23,
    Representable (Nat.pow 10 exponent * unitsPerOne) := by
  decide +kernel

/-- Small powers of ten are their own numbers. -/
theorem ofDecimal_power {exponent : Nat} (few : exponent < 23) :
    ofDecimal false 1 exponent =
      .finite false (Nat.pow 10 exponent * unitsPerOne) (representable_power exponent few) := by
  rw [Decimal.ofDecimal_one (by omega)]
  exact ofRatio_of_nearest _
    (nearestUnits_one (Nat.dvd_of_mod_eq_zero (representable_power exponent few).2)) false

end Binary64

namespace Value

/-- A number on its own grid is scaled by a small power of ten with a single rounding. -/
theorem scale?_of_nearest {decimal : Decimal} {units : Nat} (fits : Representable units)
    (whole : Representable (decimal.significand * unitsPerOne))
    (near : decimal.exponent.natAbs < 23)
    (nearest : nearestUnits (decimal.scaled unitsPerOne).1 (decimal.scaled unitsPerOne).2 = units) :
    scale? (.ofInt decimal.significand) decimal.exponent = some (.finite false units fits) := by
  have scale := Binary64.unitsPerOne_pos
  unfold Decimal.scaled at nearest
  rw [Binary64.ofInt_of_representable whole]
  -- A significand and a power that are exact leave the rounding of one quotient or product.
  rcases Int.lt_or_le decimal.exponent 0 with below | above
  · rw [if_neg (Int.not_le.mpr below)] at nearest
    have size : decimal.exponent.natAbs = (-decimal.exponent).toNat := by omega
    have power : Nat.pow 10 decimal.exponent.natAbs * unitsPerOne ≠ 0 :=
      Nat.ne_of_gt (Nat.mul_pos (Nat.pow_pos (by decide)) scale)
    rw [scale?, if_pos (by omega)]
    dsimp only
    rw [if_pos below, Binary64.ofDecimal_power near, Binary64.div_finite _ _ power]
    refine congrArg some (Binary64.ofRatio_of_nearest fits ?_ _)
    rw [nearestUnits_mul_right _ _ scale, size]
    exact nearest
  · rw [if_pos above] at nearest
    obtain ⟨exponent, form⟩ := Int.eq_ofNat_of_zero_le above
    rw [form, Int.toNat_natCast] at nearest
    rw [form, Int.natAbs_natCast] at near
    rw [form]
    have product : Binary64.finite false (decimal.significand * unitsPerOne) whole *
        Binary64.ofDecimal false 1 exponent = .finite false units fits := by
      rw [Binary64.ofDecimal_power near, Binary64.mul_finite]
      refine Binary64.ofRatio_of_nearest fits ?_ _
      calc nearestUnits (decimal.significand * unitsPerOne * (Nat.pow 10 exponent * unitsPerOne))
            unitsPerOne =
          nearestUnits (decimal.significand * Nat.pow 10 exponent * unitsPerOne * unitsPerOne)
            (1 * unitsPerOne) := by
            rw [Nat.one_mul, ← Nat.mul_assoc, Nat.mul_right_comm decimal.significand]
        _ = nearestUnits (decimal.significand * Nat.pow 10 exponent * unitsPerOne) 1 :=
            nearestUnits_mul_right _ _ scale
        _ = units := nearest
    rw [scale?_product (by omega) (by rw [product]; rfl), product]

/-- A float below 10¹⁵ whose shortest decimal has at most fifteen digits and 22 places. -/
def Short : Binary64 → Prop
  | .finite _ units _ =>
    units = 0 ∨
      let decimal := Decimal.shortest .even units
      decimal.significand * 10 ^ decimal.exponent.toNat < 10 ^ 15 ∧ -22 ≤ decimal.exponent
  | _ => False

instance : DecidablePred Short
  | .nan => isFalse id
  | .infinity _ => isFalse id
  | .finite _ units _ =>
    inferInstanceAs (Decidable (units = 0 ∨
      (Decimal.shortest .even units).significand *
          10 ^ (Decimal.shortest .even units).exponent.toNat < 10 ^ 15 ∧
        -22 ≤ (Decimal.shortest .even units).exponent))

/-- Whole numbers of fifteen digits are on their own grid. -/
theorem representable_digits {count : Nat} (few : count < 10 ^ 15) :
    Representable (count * unitsPerOne) := by
  rw [← Nat.mul_one count]
  exact @representable_whole count 0 (by omega) (by decide)

/-- Fifteen digits and a zero behind them are read as the number without the zero. -/
theorem scale?_tenfold {count units : Nat} (few : count < 10 ^ 15) (fits : Representable units)
    (nearest : nearestUnits (count * unitsPerOne) 1 = units) :
    scale? (.ofInt (count * 10 : Nat)) (-1) = some (.finite false units fits) := by
  have even : 5 * count * 2 ^ 1 = count * 10 := by omega
  have whole : Representable (count * 10 * unitsPerOne) := by
    rw [← even]
    exact representable_whole (by omega) (by decide)
  have ratio : nearestUnits (count * 10 * unitsPerOne) (1 * 10) = units := by
    rw [Nat.mul_right_comm, nearestUnits_mul_right _ _ (by decide)]
    exact nearest
  exact @scale?_of_nearest ⟨count * 10, -1⟩ units fits whole (show 1 < 23 by decide) ratio

namespace Numeral

/-- The magnitude of a short float is what its parts are scaled to. -/
theorem scaled?_short {negative : Bool} {units : Nat} {fits : Representable units}
    (short : Short (.finite negative units fits)) :
    (ofMagnitude units).scaled? = some (.finite false units fits) := by
  unfold ofMagnitude
  by_cases none : units = 0
  · subst none
    rw [if_pos rfl, scaled?_positional_whole (Int.le_refl 0)]
    refine @scale?_tenfold 0 0 (by decide) fits ?_
    rw [Nat.zero_mul]
    exact nearestUnits_one (Nat.dvd_zero _)
  · have positive := Nat.pos_of_ne_zero none
    have spells := Decimal.spells_shortest .even positive
    have nearest := Decimal.nearestUnits_of_readsBack fits positive spells.readsBack
    obtain ⟨few, places⟩ := short.resolve_left none
    rw [if_neg none]
    generalize Decimal.shortest .even units = decimal at spells nearest few places ⊢
    dsimp only
    have filled := spells.positive positive
    have digits : decimal.significand < 10 ^ 15 :=
      Nat.lt_of_le_of_lt (Nat.le_mul_of_pos_right _ (Nat.pow_pos (by decide))) few
    have power : 10 ^ decimal.exponent.toNat < 10 ^ 15 :=
      Nat.lt_of_le_of_lt (Nat.le_mul_of_pos_left _ filled) few
    have high : decimal.exponent.toNat < 15 := (Nat.pow_lt_pow_iff_right (by decide)).mp power
    have near : decimal.exponent.natAbs < 23 := by omega
    -- Positional and scientific forms differ only in the zero behind a whole number.
    split
    · rcases Int.lt_or_le decimal.exponent 0 with below | whole
      · rw [scaled?_positional_point below, Text.decimalValue_decimalDigits]
        exact scale?_of_nearest fits (representable_digits digits) near nearest
      · rw [scaled?_positional_whole whole, Text.decimalValue_decimalDigits, Nat.pow_succ,
          ← Nat.mul_assoc]
        unfold Decimal.scaled at nearest
        rw [if_pos whole] at nearest
        exact scale?_tenfold few fits nearest
    · have written := Text.isDigits_decimalDigits decimal.significand
      rw [scaled?_scientific (Text.isDigits_iff.mp written).1, Text.decimalValue_decimalDigits]
      exact scale?_of_nearest fits (representable_digits digits) near nearest

end Numeral

end Value

end Placeholder

import Mathlib.Tactic.Ring
import Placeholder.Decimal.Shortest
import Placeholder.Proofs.Binary64.Numbers
import Placeholder.Proofs.Text.Digits

/-! Shortest decimals have at most seventeen digits, and read back as their magnitudes. -/

namespace Placeholder.Decimal

/-- A number is below the power of ten of as many digits as it has. -/
theorem lt_ten_pow_length (value : Nat) : value < 10 ^ (Text.decimalDigits value).length := by
  have digits := (Text.isDigits_iff.mp (Text.isDigits_decimalDigits value)).2
  have below := Text.decimalValue_lt digits
  rwa [Text.decimalValue_decimalDigits] at below

/-- A magnitude is below the power of ten that follows its leading exponent. -/
theorem exists_leadingExponent_eq (units : Nat) :
    ∃ count : Nat, leadingExponent units = count - 331 ∧ 0 < count ∧
      units * Nat.pow 10 330 < unitsPerOne * 10 ^ count := by
  unfold leadingExponent
  have scaled := lt_ten_pow_length (units * Nat.pow 10 330 / unitsPerOne)
  refine ⟨_, rfl, ?_, ?_⟩
  · exact List.length_pos_iff.mpr Nat.toDigits_ne_nil
  · rw [Nat.div_lt_iff_lt_mul Binary64.unitsPerOne_pos, Nat.mul_comm _ unitsPerOne] at scaled
    exact scaled

/-- The digits down to an exponent are no more than the places from the leading one to there. -/
theorem floor_lt {units digits : Nat} {exponent : Int}
    (places : leadingExponent units + 1 = exponent + digits) :
    (if 0 ≤ exponent then units / (unitsPerOne * Nat.pow 10 exponent.toNat)
      else units * Nat.pow 10 (-exponent).toNat / unitsPerOne) < 10 ^ digits := by
  obtain ⟨count, leading, -, below⟩ := exists_leadingExponent_eq units
  have scale := Binary64.unitsPerOne_pos
  have sum : exponent + digits + (330 : Nat) = count := by omega
  generalize 330 = extra at sum below
  rw [Nat.pow_eq] at below
  -- Both sides are compared with the same power of ten before them.
  have common : 0 < 10 ^ extra := Nat.pow_pos (by decide)
  split
  · rename_i above
    have split : count = exponent.toNat + digits + extra := by omega
    rw [Nat.pow_eq, Nat.div_lt_iff_lt_mul (Nat.mul_pos scale (Nat.pow_pos (by decide)))]
    apply Nat.lt_of_mul_lt_mul_right (a := 10 ^ extra)
    calc units * 10 ^ extra < unitsPerOne * 10 ^ count := below
      _ = 10 ^ digits * (unitsPerOne * 10 ^ exponent.toNat) * 10 ^ extra := by
        rw [split, Nat.pow_add, Nat.pow_add]
        ring
  · rename_i beneath
    have split : digits + extra = count + (-exponent).toNat := by omega
    rw [Nat.pow_eq, Nat.div_lt_iff_lt_mul scale]
    apply Nat.lt_of_mul_lt_mul_right (a := 10 ^ extra)
    calc units * 10 ^ (-exponent).toNat * 10 ^ extra =
          units * 10 ^ extra * 10 ^ (-exponent).toNat := by ring
      _ < unitsPerOne * 10 ^ count * 10 ^ (-exponent).toNat :=
        Nat.mul_lt_mul_of_pos_right below (Nat.pow_pos (by decide))
      _ = 10 ^ digits * unitsPerOne * 10 ^ extra := by
        rw [Nat.mul_assoc, ← Nat.pow_add, ← split, Nat.pow_add]
        ring

/-- A decimal as a ratio of units has four times its numerator in quarters of units. -/
theorem scaled_four (decimal : Decimal) (factor : Nat) :
    decimal.scaled (4 * factor) =
      (4 * (decimal.scaled factor).1, (decimal.scaled factor).2) := by
  unfold Decimal.scaled
  split
  · rw [Nat.mul_left_comm]
  · rw [Nat.mul_left_comm]

/-- The denominator of a decimal as a ratio is positive. -/
theorem scaled_pos (decimal : Decimal) (factor : Nat) : 0 < (decimal.scaled factor).2 := by
  unfold Decimal.scaled
  split
  · exact Nat.one_pos
  · exact Nat.pow_pos (by decide)

/-- What is known of the decimal that stands for a magnitude. -/
structure Spells (units : Nat) (decimal : Decimal) : Prop where
  readsBack : decimal.readsBack units = true
  short : decimal.significand < 10 ^ 17
  low : -346 ≤ decimal.exponent

/-- Of two decimals only one that reads back is chosen. -/
theorem choice_cases {units : Nat} {below above decimal : Decimal} {roundDown : Bool}
    (chosen : (match readsBack units below, readsBack units above with
      | true, true => some (if roundDown then below else above)
      | true, false => some below
      | false, true => some above
      | false, false => none) = some decimal) :
    decimal.readsBack units = true ∧ (decimal = below ∨ decimal = above) := by
  -- The side that is rounded to matters only when both read back.
  cases first : readsBack units below with
  | true =>
    cases second : readsBack units above with
    | true =>
      rw [first, second] at chosen
      cases roundDown with
      | true => exact Option.some.inj chosen ▸ ⟨first, Or.inl rfl⟩
      | false => exact Option.some.inj chosen ▸ ⟨second, Or.inr rfl⟩
    | false =>
      rw [first, second] at chosen
      exact Option.some.inj chosen ▸ ⟨first, Or.inl rfl⟩
  | false =>
    cases second : readsBack units above with
    | true =>
      rw [first, second] at chosen
      exact Option.some.inj chosen ▸ ⟨second, Or.inr rfl⟩
    | false =>
      rw [first, second] at chosen
      cases chosen

/-- Of two decimals one is chosen when one of them reads back. -/
theorem choice_isSome {units : Nat} {below above : Decimal} {roundDown : Bool}
    (either : readsBack units below = true ∨ readsBack units above = true) :
    (match readsBack units below, readsBack units above with
      | true, true => some (if roundDown then below else above)
      | true, false => some below
      | false, true => some above
      | false, false => none).isSome = true := by
  rcases either with first | second
  · rw [first]
    cases readsBack units above with
    | true => rfl
    | false => rfl
  · rw [second]
    cases readsBack units below with
    | true => rfl
    | false => rfl

/-- The decimal above another one of some digits and an exponent, where a carry leaves one digit. -/
def nextAbove (below : Nat) (exponent : Int) (digits : Nat) : Decimal :=
  if below + 1 = Nat.pow 10 digits then ⟨1, exponent + digits⟩ else ⟨below + 1, exponent⟩

/-- The decimal of a length that is found is the one below or the one above. -/
theorem nearest?_cases {tie : Tie} {units digits : Nat} {exponent : Int} {decimal : Decimal}
    (found : nearest? tie units exponent digits = some decimal) :
    decimal.readsBack units = true ∧ ∃ below, below = (if 0 ≤ exponent then
        units / (unitsPerOne * Nat.pow 10 exponent.toNat)
      else units * Nat.pow 10 (-exponent).toNat / unitsPerOne) ∧
      (decimal = ⟨below, exponent⟩ ∨ decimal = nextAbove below exponent digits) := by
  unfold nearest? at found
  split
  · rename_i above
    rw [if_pos above] at found
    obtain ⟨reads, choice⟩ := choice_cases found
    exact ⟨reads, _, rfl, choice⟩
  · rename_i beneath
    rw [if_neg beneath] at found
    obtain ⟨reads, choice⟩ := choice_cases found
    exact ⟨reads, _, rfl, choice⟩

/-- A decimal of a length that is found has at most as many digits, and an exponent near by. -/
theorem nearest?_short {tie : Tie} {units digits : Nat} {exponent : Int} {decimal : Decimal}
    (filled : 0 < digits) (places : leadingExponent units + 1 = exponent + digits)
    (found : nearest? tie units exponent digits = some decimal) :
    decimal.significand < 10 ^ digits ∧ exponent ≤ decimal.exponent := by
  have floor := floor_lt places
  obtain ⟨-, below, same, choice⟩ := nearest?_cases found
  rw [← same] at floor
  rcases choice with rfl | rfl
  · dsimp only
    omega
  · unfold nextAbove
    rw [Nat.pow_eq]
    -- A carry gives the digit one, which is short enough since there is at least one place.
    split
    · have several : 1 < 10 ^ digits := Nat.one_lt_pow (by omega) (by decide)
      dsimp only
      omega
    · dsimp only
      omega

/-- A decimal of at most seventeen digits that is found for a magnitude spells it. -/
theorem spells_of_nearest? {tie : Tie} {units further : Nat} {decimal : Decimal}
    (few : further < 17)
    (found : nearest? tie units (leadingExponent units - further) (further + 1) = some decimal) :
    Spells units decimal := by
  have places : leadingExponent units + 1 =
      leadingExponent units - (further : Nat) + (further + 1 : Nat) := by omega
  obtain ⟨short, low⟩ := nearest?_short (Nat.succ_pos further) places found
  obtain ⟨count, leading, counted, -⟩ := exists_leadingExponent_eq units
  have length : 10 ^ (further + 1) ≤ 10 ^ 17 := Nat.pow_le_pow_right (by decide) few
  refine ⟨(nearest?_cases found).1, Nat.lt_of_lt_of_le short length, ?_⟩
  show -346 ≤ decimal.exponent
  omega

/-- A decimal that reads back lies between the ties around its magnitude. -/
theorem bounds_of_readsBack {units : Nat} {decimal : Decimal}
    (reads : decimal.readsBack units = true) :
    (4 * units - gapBelow units) * (decimal.scaled (4 * unitsPerOne)).2 ≤
        (decimal.scaled (4 * unitsPerOne)).1 ∧
      (decimal.scaled (4 * unitsPerOne)).1 ≤
        (4 * units + gapAbove units) * (decimal.scaled (4 * unitsPerOne)).2 := by
  unfold readsBack at reads
  dsimp only at reads
  split at reads
  · simpa using reads
  · have strict := Bool.and_eq_true_iff.mp reads
    exact ⟨Nat.le_of_lt (of_decide_eq_true strict.1), Nat.le_of_lt (of_decide_eq_true strict.2)⟩

/-- The decimal of a positive magnitude is not zero. -/
theorem Spells.positive {units : Nat} {decimal : Decimal} (positive : 0 < units)
    (spells : Spells units decimal) : 0 < decimal.significand := by
  -- Zero lies below all that reads back.
  apply Nat.pos_of_ne_zero
  intro none
  have grid := spacing_le positive
  have gap : gapBelow units ≤ 2 * spacing units := by
    unfold gapBelow
    dsimp only
    split
    · omega
    · exact Nat.le_refl _
  have scaled : (decimal.scaled (4 * unitsPerOne)).1 = 0 ∧
      0 < (decimal.scaled (4 * unitsPerOne)).2 := by
    unfold Decimal.scaled
    rw [none]
    split
    · simp
    · rw [Nat.pow_eq]
      exact ⟨Nat.zero_mul _, Nat.pow_pos (by decide)⟩
  have least := (bounds_of_readsBack spells.readsBack).1
  rw [scaled.1] at least
  have room : 0 < 4 * units - gapBelow units := by omega
  exact absurd least (Nat.not_le.mpr (Nat.mul_pos room scaled.2))

/-- A decimal with no places behind the point is at most the tie above its magnitude. -/
theorem Spells.upper {units : Nat} {decimal : Decimal} (spells : Spells units decimal)
    (whole : 0 ≤ decimal.exponent) :
    decimal.significand * 10 ^ decimal.exponent.toNat * (4 * unitsPerOne) ≤
      4 * units + 2 * spacing units := by
  have most := (bounds_of_readsBack spells.readsBack).2
  unfold Decimal.scaled gapAbove at most
  rw [if_pos whole, Nat.mul_one] at most
  exact most

end Placeholder.Decimal

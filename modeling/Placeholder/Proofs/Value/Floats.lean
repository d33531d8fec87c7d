import Placeholder.Decimal.Spelling
import Placeholder.Proofs.Decimal.Product
import Placeholder.Proofs.Value.Numerals

/-! The JSON text of a finite float is a numeral that is read as a float. -/

namespace Placeholder.Value

namespace Numeral

/-- The parts of digits with a point put where the exponent of the last digit says. -/
def positional (digits : List Char) (exponent : Int) : Numeral :=
  if 0 ≤ exponent then ⟨digits ++ List.replicate exponent.toNat '0', ['0'], none⟩
  else
    let places := (-exponent).toNat
    if places < digits.length then
      ⟨digits.take (digits.length - places), digits.drop (digits.length - places), none⟩
    else ⟨['0'], List.replicate (places - digits.length) '0' ++ digits, none⟩

/-- The parts of digits with a point after the first, and the exponent of the first. -/
def scientific (digits : List Char) (leading : Int) : Numeral :=
  ⟨digits.take 1, digits.drop 1, some (decide (leading < 0), leading.natAbs)⟩

/-- The parts of a magnitude, in the form that JSON writes it in. -/
def ofMagnitude (units : Nat) : Numeral :=
  if units = 0 then positional ['0'] 0
  else
    let decimal := Decimal.shortest .even units
    let digits := Text.decimalDigits decimal.significand
    let leading := decimal.exponent + digits.length - 1
    if Spelling.moderate leading then positional digits decimal.exponent
    else scientific digits leading

/-- The parts in positional form write what JSON does. -/
theorem text_positional {digits : List Char} (filled : digits ≠ []) (exponent : Int) :
    (positional digits exponent).text = Spelling.json.positionalText digits exponent := by
  unfold positional Spelling.positionalText
  split
  · rfl
  · dsimp only
    split
    · rename_i beneath inside
      -- A fraction without digits would be left out, but this one has some.
      have behind : digits.drop (digits.length - (-exponent).toNat) ≠ [] := by
        rw [Ne, List.drop_eq_nil_iff]
        omega
      rw [text, fractionText, if_neg (by simpa using behind)]
      simp [exponentText]
    · have behind : List.replicate ((-exponent).toNat - digits.length) '0' ++ digits ≠ [] :=
        List.append_ne_nil_of_right_ne_nil _ filled
      rw [text, fractionText, if_neg (by simpa using fun _ => filled)]
      simp [exponentText]

/-- The parts in scientific form write what JSON does. -/
theorem text_scientific {digits : List Char} (filled : digits ≠ []) (leading : Int) :
    (scientific digits leading).text = Spelling.json.scientificText digits leading := by
  have sign : exponentText (some (decide (leading < 0), leading.natAbs)) =
      'e' :: ((if leading < 0 then ['-'] else ['+']) ++ Text.decimalDigits leading.natAbs) := by
    by_cases below : leading < 0
    · simp [exponentText, below]
    · simp [exponentText, below]
  rcases digits with _ | ⟨first, _ | ⟨second, others⟩⟩
  · exact absurd rfl filled
  · simp [text, scientific, fractionText, sign, Spelling.scientificText, Spelling.json]
  · simp [text, scientific, fractionText, sign, Spelling.scientificText, Spelling.json]

/-- The parts of a magnitude write what JSON does. -/
theorem text_ofMagnitude (units : Nat) :
    (ofMagnitude units).text = Spelling.json.magnitudeText units := by
  have filled : ∀ value, Text.decimalDigits value ≠ [] := fun value => Nat.toDigits_ne_nil
  unfold ofMagnitude Spelling.magnitudeText
  split
  · exact text_positional (List.cons_ne_nil _ _) 0
  · -- JSON breaks ties to even, and is positional for moderate exponents.
    have choices : Spelling.json.tie = .even ∧ Spelling.json.positional = Spelling.moderate :=
      ⟨rfl, rfl⟩
    rw [choices.1, choices.2]
    generalize Decimal.shortest .even units = decimal
    dsimp only
    by_cases near :
        Spelling.moderate (decimal.exponent + (Text.decimalDigits decimal.significand).length - 1) =
          true
    · rw [if_pos near, if_pos near]
      exact text_positional (filled _) _
    · rw [if_neg near, if_neg near]
      exact text_scientific (filled _) _

/-- Seventeen digits fit into 64 bits. -/
theorem decimalValue_lt_size {digits : List Char} (run : ∀ c ∈ digits, c.isDigit = true)
    (few : digits.length ≤ 17) : Text.decimalValue digits < UInt64.size :=
  calc Text.decimalValue digits < 10 ^ digits.length := Text.decimalValue_lt run
    _ ≤ 10 ^ 17 := Nat.pow_le_pow_right (by decide) few
    _ < UInt64.size := by decide

/-- Digits in front of the point are scaled down by the place behind it. -/
theorem scaled?_positional_whole {digits : List Char} {exponent : Int} (whole : 0 ≤ exponent) :
    (positional digits exponent).scaled? =
      scale? (.ofInt (Text.decimalValue digits * 10 ^ (exponent.toNat + 1) : Nat)) (-1) := by
  have value : Text.decimalValue ((digits ++ List.replicate exponent.toNat '0') ++ ['0']) =
      Text.decimalValue digits * 10 ^ (exponent.toNat + 1) := by
    rw [List.append_assoc, ← List.replicate_succ', Text.decimalValue_append,
      Text.decimalValue_zeros, List.length_replicate, Nat.add_zero]
  rw [positional, if_pos whole, scaled?]
  dsimp only
  rw [value]
  rfl

/-- Digits around the point are scaled down by the places behind it. -/
theorem scaled?_positional_point {digits : List Char} {exponent : Int} (below : exponent < 0) :
    (positional digits exponent).scaled? =
      scale? (Binary64.ofInt (Text.decimalValue digits)) exponent := by
  rw [positional, if_neg (Int.not_le.mpr below)]
  dsimp only
  by_cases inside : (-exponent).toNat < digits.length
  · rw [if_pos inside, scaled?]
    dsimp only
    rw [List.take_append_drop, List.length_drop]
    congr 1
    omega
  · -- The zeros in between make up for the digits that are missing.
    rw [if_neg inside, scaled?]
    dsimp only
    rw [Text.decimalValue_behind_zeros, List.length_append, List.length_replicate]
    congr 1
    omega

/-- Digits in positional form are scaled by some power of ten below one. -/
theorem exists_scaled?_positional (digits : List Char) (exponent : Int) :
    ∃ magnitude, (positional digits exponent).scaled? = some magnitude := by
  rcases Int.lt_or_le exponent 0 with below | whole
  · rw [scaled?_positional_point below]
    exact scale?_negative _ below
  · rw [scaled?_positional_whole whole]
    exact scale?_negative _ (by decide)

/-- Parts with a fraction and no exponent are read as a float when they are short. -/
theorem floating_of_fraction {whole fraction : List Char} (before : Text.isDigits whole = true)
    (zero : whole.head? = some '0' → whole = ['0']) (behind : Text.isDigits fraction = true)
    (short : Text.decimalValue (whole ++ fraction) < UInt64.size)
    (scaled : ∃ magnitude, scaled? ⟨whole, fraction, none⟩ = some magnitude) :
    Floating ⟨whole, fraction, none⟩ := by
  obtain ⟨filled, each⟩ := Text.isDigits_iff.mp behind
  refine ⟨⟨before, zero, each⟩, short, Or.inl filled, ?_, scaled⟩
  intro below size absent
  cases absent

section
variable {digits : List Char} {exponent : Int}

/-- Digits in front of the point are read as a float, if the point is not far behind them. -/
theorem floating_positional_whole (run : Text.isDigits digits = true)
    (zero : digits.head? = some '0' → digits = ['0'] ∧ exponent = 0) (whole : 0 ≤ exponent)
    (near : exponent + digits.length ≤ 16) : (positional digits exponent).Floating := by
  obtain ⟨filled, each⟩ := Text.isDigits_iff.mp run
  have scaled := exists_scaled?_positional digits exponent
  have shifted : ∀ c ∈ digits ++ List.replicate exponent.toNat '0', c.isDigit = true :=
    List.forall_mem_append.mpr ⟨each, Text.forall_zeros_isDigit _⟩
  unfold positional at scaled ⊢
  rw [if_pos whole] at scaled ⊢
  refine floating_of_fraction ?_ ?_ rfl ?_ scaled
  · exact Text.isDigits_iff.mpr ⟨List.append_ne_nil_of_left_ne_nil filled _, shifted⟩
  · -- Only zero itself starts with a zero, and no zeros are put behind it.
    intro first
    rw [List.head?_append, Option.or_of_isSome (List.isSome_head?.mpr filled)] at first
    obtain ⟨rfl, rfl⟩ := zero first
    rfl
  · -- There are sixteen places in front of the point and one behind it.
    refine decimalValue_lt_size
      (List.forall_mem_append.mpr ⟨shifted, Text.forall_zeros_isDigit 1⟩) ?_
    simp only [List.length_append, List.length_replicate, List.length_singleton]
    omega

/-- Digits around the point or behind it are read as a float. -/
theorem floating_positional_point (run : Text.isDigits digits = true)
    (zero : digits.head? ≠ some '0') (few : digits.length ≤ 17) (below : exponent < 0) :
    (positional digits exponent).Floating := by
  obtain ⟨filled, each⟩ := Text.isDigits_iff.mp run
  have scaled := exists_scaled?_positional digits exponent
  unfold positional at scaled ⊢
  rw [if_neg (Int.not_le.mpr below)] at scaled ⊢
  dsimp only at scaled ⊢
  by_cases inside : (-exponent).toNat < digits.length
  · -- The point cuts the digits in two, neither part being empty.
    rw [if_pos inside] at scaled ⊢
    have before : digits.take (digits.length - (-exponent).toNat) ≠ [] := by
      intro none
      rcases List.take_eq_nil_iff.mp none with short | empty
      · omega
      · exact filled empty
    have behind : digits.drop (digits.length - (-exponent).toNat) ≠ [] := by
      rw [Ne, List.drop_eq_nil_iff]
      omega
    refine floating_of_fraction ?_ ?_ ?_ ?_ scaled
    · exact Text.isDigits_iff.mpr ⟨before, fun c member => each c (List.mem_of_mem_take member)⟩
    · intro first
      rw [List.head?_take, if_neg (by omega)] at first
      exact absurd first zero
    · exact Text.isDigits_iff.mpr ⟨behind, fun c member => each c (List.mem_of_mem_drop member)⟩
    · rw [List.take_append_drop]
      exact decimalValue_lt_size each few
  · -- All digits are behind the point, perhaps with zeros in between.
    rw [if_neg inside] at scaled ⊢
    refine floating_of_fraction rfl (fun _ => rfl) ?_ ?_ scaled
    · exact Text.isDigits_iff.mpr ⟨List.append_ne_nil_of_right_ne_nil _ filled,
        List.forall_mem_append.mpr ⟨Text.forall_zeros_isDigit _, each⟩⟩
    · rw [Text.decimalValue_behind_zeros]
      exact decimalValue_lt_size each few

end

/-- Digits in scientific form are scaled by the exponent of the last one. -/
theorem scaled?_scientific {digits : List Char} (filled : digits ≠ []) (exponent : Int) :
    (scientific digits (exponent + digits.length - 1)).scaled? =
      scale? (Binary64.ofInt (Text.decimalValue digits)) exponent := by
  have length := List.length_pos_iff.mpr filled
  unfold scientific scaled?
  dsimp only
  rw [List.take_append_drop, List.length_drop]
  -- The exponent is written as a sign and a size, from which the fraction digits are taken.
  congr 1
  split
  · rename_i below
    have leading := of_decide_eq_true below
    omega
  · rename_i above
    have leading := of_decide_eq_false (Bool.not_eq_true _ ▸ above)
    omega

/-- Digits in scientific form are read as a float, if their product with a power is finite. -/
theorem floating_scientific {digits : List Char} {exponent : Int}
    (run : Text.isDigits digits = true) (few : digits.length ≤ 17) (low : -346 ≤ exponent)
    (high : exponent ≤ 308)
    (finite : 0 ≤ exponent → (Binary64.ofInt (Text.decimalValue digits) *
      Binary64.ofDecimal false 1 exponent.toNat).isFinite = true) :
    (scientific digits (exponent + digits.length - 1)).Floating := by
  obtain ⟨filled, each⟩ := Text.isDigits_iff.mp run
  have length := List.length_pos_iff.mpr filled
  refine ⟨⟨?_, ?_, ?_⟩, ?_, Or.inr (Option.some_ne_none _), ?_, ?_⟩
  · refine Text.isDigits_iff.mpr ⟨?_, fun c member => each c (List.mem_of_mem_take member)⟩
    simpa [scientific] using filled
  · -- There is only one digit before the point.
    cases digits with
    | nil => exact absurd rfl filled
    | cons c others =>
      intro first
      exact congrArg (fun c => [c]) (Option.some.inj first)
  · exact fun c member => each c (List.mem_of_mem_drop member)
  · rw [scientific, List.take_append_drop]
    exact decimalValue_lt_size each few
  · intro below size same
    have width : Int32.maxValue.toInt = 2147483647 := by decide
    cases same
    omega
  · rw [scaled?_scientific filled]
    by_cases above : 0 ≤ exponent
    · have product := scale?_product (by omega) (finite above)
      rw [Int.toNat_of_nonneg above] at product
      exact ⟨_, product⟩
    · exact scale?_negative _ (Int.not_le.mp above)

/-- The parts of a magnitude are read as a float. -/
theorem floating_ofMagnitude {units : Nat} (fits : Representable units) :
    (ofMagnitude units).Floating := by
  unfold ofMagnitude
  by_cases none : units = 0
  · rw [if_pos none]
    exact floating_positional_whole rfl (fun _ => ⟨rfl, rfl⟩) (Int.le_refl 0) (by decide)
  · have positive := Nat.pos_of_ne_zero none
    rw [if_neg none]
    generalize form : Decimal.shortest .even units = decimal
    dsimp only
    have spells : Decimal.Spells units decimal := form ▸ Decimal.spells_shortest .even positive
    have run := Text.isDigits_decimalDigits decimal.significand
    have zero := Text.head_decimalDigits (spells.positive positive)
    have few : (Text.decimalDigits decimal.significand).length ≤ 17 :=
      (Nat.length_toDigits_le_iff (by decide) (by decide)).mpr spells.short
    rcases Int.lt_or_le decimal.exponent 0 with below | whole
    · -- A quotient never overflows.
      split
      · exact floating_positional_point run zero few below
      · refine floating_scientific run few spells.low (by omega) ?_
        intro whole
        exact absurd whole (Int.not_le.mpr below)
    · have high := Decimal.exponent_lt fits positive form.symm whole
      split
      · rename_i near
        have leading := of_decide_eq_true (Bool.and_eq_true_iff.mp near).2
        exact floating_positional_whole run (fun first => absurd first zero) whole (by omega)
      · refine floating_scientific run few spells.low (by omega) ?_
        intro _
        rw [Text.decimalValue_decimalDigits]
        exact Decimal.isFinite_mul_power spells.short high
          (Decimal.productUnits_lt fits positive form.symm whole)

end Numeral

/-- The text of a magnitude is read as it is scaled, with either sign and up to what ends it. -/
theorem number?_magnitudeText {units : Nat} (fits : Representable units) {magnitude : Binary64}
    (scaled : (Numeral.ofMagnitude units).scaled? = some magnitude) (negative : Bool)
    {rest : List Char} (ends : EndsNumber rest) :
    number? negative (Spelling.json.magnitudeText units ++ rest) =
      some (.float (signed negative magnitude), rest) := by
  have floating := Numeral.floating_ofMagnitude fits
  rw [← Numeral.text_ofMagnitude, number?_numeral floating.toWellFormed negative ends,
    Numeral.value?_floating floating scaled]
  rfl

/-- The text of a magnitude starts with a digit. -/
theorem exists_magnitudeText {units : Nat} (fits : Representable units) :
    ∃ c others, c.isDigit = true ∧ Spelling.json.magnitudeText units = c :: others := by
  obtain ⟨filled, each⟩ := Text.isDigits_iff.mp (Numeral.floating_ofMagnitude fits).whole
  obtain ⟨c, others, form⟩ := List.exists_cons_of_ne_nil filled
  rw [form] at each
  rw [← Numeral.text_ofMagnitude, Numeral.text, form, List.cons_append]
  exact ⟨c, _, each c List.mem_cons_self, rfl⟩

end Placeholder.Value

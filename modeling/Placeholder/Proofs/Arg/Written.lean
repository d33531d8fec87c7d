import Mathlib.Tactic.IntervalCases
import Placeholder.Decimal.Reading
import Placeholder.Proofs.Arg.Classify
import Placeholder.Proofs.Text.Runs

/-! Values of options are used as they are written, apart from runs of digits. -/

namespace Placeholder

namespace Arg

/-- A run of digits for a number beyond the machine integers. -/
def Beyond (text : String) : Prop :=
  Text.isDigits text.toList = true ∧ Int64.maxValue.toInt < Text.decimalValue text.toList

instance (text : String) : Decidable (Beyond text) :=
  inferInstanceAs (Decidable (_ ∧ _))

/-- The text that a value stands for: digits lose leading zeros, and are held to a limit. -/
def usedText (text : String) : String :=
  if Text.isDigits text.toList then
    String.ofList (Text.decimalDigits
      (min (Text.decimalValue text.toList) Int64.maxValue.toInt.toNat))
  else text

/-- A text that was classified is written again as it is used. -/
theorem toText_classify (text : String) : (classify text).toText = usedText text := by
  unfold classify usedText
  split
  · -- Saturation has no lower end to care about here.
    have held := Integer.toInt_saturate (Text.decimalValue text.toList)
    have normal : 0 ≤ (Integer.saturate (Text.decimalValue text.toList)).toInt :=
      Integer.toInt_saturate_nonneg (Int.natCast_nonneg _)
    have same : (Integer.saturate (Text.decimalValue text.toList)).toInt.toNat =
        min (Text.decimalValue text.toList) Int64.maxValue.toInt.toNat := by
      rw [held, Int64.toInt_minValue, Int64.toInt_maxValue]
      omega
    rw [← same, ← toText_number normal, String.ofList_toList]
  · rfl

/-- A value that is no run of digits is used as it is. -/
theorem usedText_of_not_digits {text : String} (other : Text.isDigits text.toList = false) :
    usedText text = text := by
  unfold usedText
  rw [other]
  rfl

end Arg

namespace Text

/-- A digit is no blank. -/
theorem isBlank_digit {c : Char} (digit : c.isDigit = true) : isBlank c = false := by
  obtain ⟨low, high⟩ := Char.isDigit_iff_toNat.mp digit
  have zero : '0'.toNat = 48 := rfl
  have nine : '9'.toNat = 57 := rfl
  rw [zero] at low
  rw [nine] at high
  unfold isBlank
  generalize c.toNat = code at low high
  interval_cases code
  all_goals rfl

/-- A run of digits has no blanks to lose. -/
theorem trim_digits {digits : List Char} (run : isDigits digits = true) :
    trim digits = digits := by
  -- Neither the first character nor the last one is dropped.
  have kept : ∀ text : List Char, (∀ c ∈ text, c.isDigit = true) →
      text.dropWhile isBlank = text := by
    intro text run
    cases text with
    | nil => rfl
    | cons c rest =>
      rw [List.dropWhile_cons, isBlank_digit (run c List.mem_cons_self)]
      rfl
  obtain ⟨-, each⟩ := isDigits_iff.mp run
  rw [trim, trimStart, kept digits each, trimEnd, kept digits.reverse, List.reverse_reverse]
  intro c member
  exact each c (List.mem_reverse.mp member)

end Text

namespace Binary64

/-- A run of digits is read as the number nearest to its value. -/
theorem ofNumeral?_digits {digits : List Char} (run : Text.isDigits digits = true) :
    ofNumeral? digits = (some (ofDecimal false (Text.decimalValue digits) 0)).filter isFinite := by
  obtain ⟨filled, each⟩ := Text.isDigits_iff.mp run
  have stop : ([] : List Char).head?.any Char.isDigit = false := rfl
  have whole := Text.takeWhile_run each stop
  have rest := Text.dropWhile_run each stop
  rw [List.append_nil] at whole rest
  have decimal : Decimal.ofNumeral? digits = some ⟨Text.decimalValue digits, 0⟩ := by
    unfold Decimal.ofNumeral?
    simp [whole, rest, filled, Decimal.exponentPart?]
  unfold ofNumeral?
  split
  rename_i negative unsigned sign
  split at sign
  · -- A sign would be no digit.
    exact absurd List.mem_cons_self (@Text.not_mem_digits _ run '-' (by decide))
  · exact absurd List.mem_cons_self (@Text.not_mem_digits _ run '+' (by decide))
  · cases sign
    rw [decimal]
    rfl

end Binary64

end Placeholder

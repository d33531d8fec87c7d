import Placeholder.Arg
import Placeholder.Proofs.Integer
import Placeholder.Proofs.Text.Digits

/-! Arguments that were classified are told apart by their texts alone. -/

namespace Placeholder.Arg

/-- An argument that a segment between commas on one line can stand for. -/
def Normal : Arg → Prop
  | .number value => 0 ≤ value.toInt
  | .text content =>
    -- A text of digits alone would be a number.
    content ≠ "" ∧ Text.isDigits content.toList = false ∧
      ',' ∉ content.toList ∧ '\n' ∉ content.toList

/-- A number that is not negative is written as the digits of its magnitude. -/
theorem toText_number {value : Int64} (normal : 0 ≤ value.toInt) :
    (toText (.number value)).toList = Text.decimalDigits value.toInt.toNat := by
  rw [toText, Int.toString_eq_repr, Int.repr_eq_if, if_pos normal, Nat.toList_repr]
  rfl

/-- Classifying the text of a normal argument gives the argument back. -/
theorem classify_toText {arg : Arg} (normal : arg.Normal) : classify arg.toText = arg := by
  cases arg with
  | number value =>
    have digits := toText_number normal
    rw [classify, digits, if_pos (Text.isDigits_decimalDigits _),
      Text.decimalValue_decimalDigits, Int.toNat_of_nonneg normal, Integer.saturate_toInt]
  | text content =>
    obtain ⟨-, noDigits, -, -⟩ := normal
    simp [classify, toText, noDigits]

/-- A segment that is not empty classifies as a normal argument. -/
theorem normal_classify {segment : List Char} (nonempty : segment ≠ []) (comma : ',' ∉ segment)
    (line : '\n' ∉ segment) : (classify (String.ofList segment)).Normal := by
  rw [classify]
  split
  · -- Digits have no sign, and saturation keeps a number from falling below zero.
    exact Integer.toInt_saturate_nonneg (Int.natCast_nonneg _)
  · rename_i noDigits
    refine ⟨?_, by simpa using noDigits, by simpa using comma, by simpa using line⟩
    simpa [← String.toList_inj] using nonempty

/-- The text of a normal argument is a segment that is not empty. -/
theorem toText_normal {arg : Arg} (normal : arg.Normal) :
    arg.toText.toList ≠ [] ∧ ',' ∉ arg.toText.toList ∧ '\n' ∉ arg.toText.toList := by
  cases arg with
  | number value =>
    have digits := Text.isDigits_decimalDigits value.toInt.toNat
    rw [toText_number normal]
    exact ⟨(Text.isDigits_iff.mp digits).1, Text.not_mem_digits digits (by decide),
      Text.not_mem_digits digits (by decide)⟩
  | text content =>
    obtain ⟨nonempty, -, comma, line⟩ := normal
    exact ⟨by simpa [toText] using nonempty, comma, line⟩

end Placeholder.Arg

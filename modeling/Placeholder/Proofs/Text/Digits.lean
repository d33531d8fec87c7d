import Mathlib.Algebra.Group.Nat.Defs
import Placeholder.Text.Digits

/-! Runs of digits are read as numbers, and those of one length are ordered like the numbers. -/

namespace Placeholder.Text

/-- Runs of digits have at least one character, and each is a digit. -/
theorem isDigits_iff {text : List Char} :
    isDigits text = true ↔ text ≠ [] ∧ ∀ c ∈ text, c.isDigit = true := by
  simp [isDigits]

/-- The digits of a number are a run of digits. -/
theorem isDigits_decimalDigits (value : Nat) : isDigits (decimalDigits value) = true := by
  refine isDigits_iff.mpr ⟨Nat.toDigits_ne_nil, ?_⟩
  intro c member
  exact Nat.isDigit_of_mem_toDigits (by decide) (by decide) member

/-- The digits of a number are read as the number. -/
theorem decimalValue_decimalDigits (value : Nat) : decimalValue (decimalDigits value) = value :=
  -- The fold over the digits is the library's reading of digit characters.
  Nat.ofDigitChars_ten_toDigits

/-- No digit but that of zero is a zero. -/
theorem digitChar_ne_zero : ∀ digit < 10, 0 < digit → Nat.digitChar digit ≠ '0' := by
  decide

/-- The digits of a positive number do not start with a zero. -/
theorem head_decimalDigits {value : Nat} (positive : 0 < value) :
    (decimalDigits value).head? ≠ some '0' := by
  -- The first digit is what is left when all others have been divided away.
  induction value using Nat.strongRecOn with
  | ind value ih =>
    unfold decimalDigits
    rcases Nat.lt_or_ge value 10 with single | several
    · rw [Nat.toDigits_of_lt_base single]
      intro zero
      exact digitChar_ne_zero value single positive (Option.some.inj zero)
    · rw [Nat.toDigits_of_base_le (by decide) several, List.head?_append,
        Option.or_of_isSome (List.isSome_head?.mpr Nat.toDigits_ne_nil)]
      exact ih (value / 10) (Nat.div_lt_self positive (by decide)) (Nat.div_pos several (by decide))

/-- A character that is no digit is in no run of digits. -/
theorem not_mem_digits {text : List Char} (digits : isDigits text = true) {c : Char}
    (foreign : c.isDigit = false) : c ∉ text := by
  intro member
  simp [(isDigits_iff.mp digits).2 c member] at foreign

/-- A digit counts for at most nine. -/
theorem digitValue_le {c : Char} (digit : c.isDigit = true) : digitValue c ≤ 9 := by
  have bounds := Char.isDigit_iff_toNat.mp digit
  have zero : '0'.toNat = 48 := rfl
  have nine : '9'.toNat = 57 := rfl
  unfold digitValue
  omega

/-- The first digit of a run counts as often as the digits behind it can be told apart. -/
theorem decimalValue_cons (c : Char) (digits : List Char) :
    decimalValue (c :: digits) = digitValue c * 10 ^ digits.length + decimalValue digits := by
  -- The fold is the library's, which takes its start out of it.
  show Nat.ofDigitChars 10 (c :: digits) 0 = _
  rw [Nat.ofDigitChars_cons, Nat.mul_zero, Nat.zero_add, Nat.ofDigitChars_eq_ofDigitChars_zero,
    Nat.mul_comm]
  rfl

/-- Digits in front of others count as often as the others can be told apart. -/
theorem decimalValue_append (digits others : List Char) :
    decimalValue (digits ++ others) =
      decimalValue digits * 10 ^ others.length + decimalValue others := by
  induction digits with
  | nil => simp [decimalValue]
  | cons c digits ih =>
    rw [List.cons_append, decimalValue_cons, decimalValue_cons, ih, List.length_append,
      Nat.pow_add, Nat.add_mul, Nat.mul_assoc, Nat.add_assoc]

/-- Zeros alone count for nothing. -/
@[simp] theorem decimalValue_zeros (count : Nat) :
    decimalValue (List.replicate count '0') = 0 := by
  induction count with
  | zero => rfl
  | succ count ih =>
    rw [List.replicate_succ, decimalValue_cons, ih, Nat.add_zero]
    exact Nat.zero_mul _

/-- Zeros in front of digits are read, but count for nothing. -/
theorem decimalValue_behind_zeros (count : Nat) (digits : List Char) :
    decimalValue (['0'] ++ (List.replicate count '0' ++ digits)) = decimalValue digits := by
  show decimalValue (List.replicate (count + 1) '0' ++ digits) = _
  rw [decimalValue_append, decimalValue_zeros, Nat.zero_mul, Nat.zero_add]

/-- Zeros are digits. -/
theorem forall_zeros_isDigit (count : Nat) : ∀ c ∈ List.replicate count '0', c.isDigit = true := by
  intro c member
  rw [List.eq_of_mem_replicate member]
  rfl

/-- A run of digits stays below the power of ten of its length. -/
theorem decimalValue_lt {digits : List Char} (run : ∀ c ∈ digits, c.isDigit = true) :
    decimalValue digits < 10 ^ digits.length := by
  induction digits with
  | nil => decide
  | cons c digits ih =>
    have inner := ih fun d member => run d (List.mem_cons_of_mem _ member)
    have first := Nat.mul_le_mul_right (10 ^ digits.length)
      (digitValue_le (run c List.mem_cons_self))
    rw [decimalValue_cons, List.length_cons, Nat.pow_succ]
    omega

/-- Of two runs of one length the smaller number comes first, whatever follows the runs. -/
theorem append_lt_of_decimalValue_lt {digits others rest further : List Char}
    (run : ∀ c ∈ digits, c.isDigit = true) (otherRun : ∀ c ∈ others, c.isDigit = true)
    (lengths : digits.length = others.length)
    (smaller : decimalValue digits < decimalValue others) :
    digits ++ rest < others ++ further := by
  -- The first digits in which the runs differ decide, since what is behind them counts for less.
  induction digits generalizing others with
  | nil =>
    obtain rfl := List.length_eq_zero_iff.mp lengths.symm
    exact absurd smaller (Nat.lt_irrefl _)
  | cons c digits ih =>
    cases others with
    | nil => cases lengths
    | cons d others =>
      have inner : digits.length = others.length := Nat.succ.inj lengths
      have behind := decimalValue_lt fun e member => run e (List.mem_cons_of_mem _ member)
      have otherBehind := decimalValue_lt fun e member =>
        otherRun e (List.mem_cons_of_mem _ member)
      have digit := Char.isDigit_iff_toNat.mp (run c List.mem_cons_self)
      have otherDigit := Char.isDigit_iff_toNat.mp (otherRun d List.mem_cons_self)
      rw [decimalValue_cons, decimalValue_cons, inner] at smaller
      rw [inner] at behind
      rw [List.cons_append, List.cons_append, List.cons_lt_cons_iff]
      rcases Nat.lt_trichotomy (digitValue c) (digitValue d) with below | same | above
      · left
        unfold digitValue at below
        show c.toNat < d.toNat
        omega
      · right
        have sameDigit : c = d := by
          apply Char.toNat_inj.mp
          unfold digitValue at same
          omega
        rw [same] at smaller
        exact ⟨sameDigit, ih (fun e member => run e (List.mem_cons_of_mem _ member))
          (fun e member => otherRun e (List.mem_cons_of_mem _ member)) inner (by omega)⟩
      · -- A greater first digit would outweigh all that is behind it.
        have outweighed := Nat.mul_le_mul_right (10 ^ others.length) (Nat.succ_le_of_lt above)
        rw [Nat.succ_mul] at outweighed
        omega

/-- Zeros in front of a run of digits do not change its value. -/
@[simp] theorem decimalValue_zeroPadded (width value : Nat) :
    decimalValue (zeroPadded width value) = value := by
  rw [zeroPadded, List.leftpad, decimalValue_append, decimalValue_zeros, Nat.zero_mul,
    Nat.zero_add]
  exact decimalValue_decimalDigits value

/-- A number that fits into a width takes up exactly that width. -/
theorem length_zeroPadded {width value : Nat} (wide : 0 < width) (fits : value < 10 ^ width) :
    (zeroPadded width value).length = width := by
  have short := (Nat.length_toDigits_le_iff (by decide) wide).mpr fits
  rw [zeroPadded, List.length_leftpad, decimalDigits]
  exact Nat.max_eq_left short

/-- A padded number is a run of digits. -/
theorem isDigits_zeroPadded (width value : Nat) : isDigits (zeroPadded width value) = true := by
  obtain ⟨nonempty, digits⟩ := isDigits_iff.mp (isDigits_decimalDigits value)
  rw [isDigits_iff, zeroPadded, List.leftpad]
  refine ⟨List.append_ne_nil_of_right_ne_nil _ nonempty, ?_⟩
  intro c member
  rcases List.mem_append.mp member with zero | digit
  · rw [List.eq_of_mem_replicate zero]
    rfl
  · exact digits c digit

end Placeholder.Text

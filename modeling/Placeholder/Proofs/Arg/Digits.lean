import Placeholder.Proofs.Arg.Leading
import Placeholder.Proofs.Arg.Written

/-! A run of digits is taken for the same integer as a number and as text with a unit behind it. -/

namespace Placeholder

namespace Text

/-- Digits that are put to a number do not make it smaller. -/
theorem le_foldl_digits (digits : List Char) (value : Nat) :
    value ≤ digits.foldl (fun value c => 10 * value + digitValue c) value := by
  -- The fold is the library's, which multiplies its start by a power of ten.
  show value ≤ Nat.ofDigitChars 10 digits value
  rw [Nat.ofDigitChars_eq_ofDigitChars_zero]
  exact Nat.le_add_right_of_le (Nat.le_mul_of_pos_left value (Nat.pow_pos (by decide)))

end Text

namespace Arg

open Text (decimalValue digitValue isDigits)

/-- A digit is put to a number, unless the product with ten or the sum has no room. -/
def appendDigit? (value : Int64) (c : Char) : Option Int64 := do
  let product ← Integer.narrow? (value.toInt * 10)
  Integer.narrow? (product.toInt + digitValue c)

/-- The integer of a run of digits, unless it or an integer on the way to it has no room. -/
def exactInteger? (digits : List Char) : Option Int64 :=
  digits.foldlM appendDigit? 0

/-- Where the product has no room the sum would have none. -/
theorem appendDigit?_eq {value : Int64} (nonneg : 0 ≤ value.toInt) (c : Char) :
    appendDigit? value c = Integer.narrow? (10 * value.toInt + digitValue c) := by
  unfold appendDigit?
  -- A digit adds nothing negative, so that a product without room leaves none for the sum.
  cases product : Integer.narrow? (value.toInt * 10) with
  | none =>
    have more : value.toInt * 10 ≤ 10 * value.toInt + digitValue c := by omega
    rw [Integer.narrow?_none_of_le (Int.mul_nonneg nonneg (by decide)) more product,
      Option.bind_eq_bind, Option.bind_none]
  | some number =>
    have same := Integer.narrow?_eq_some_iff.mp product
    rw [Option.bind_eq_bind, Option.bind_some, same, Int.mul_comm]

/-- Digits that are put to a number one by one have room when all of them have. -/
theorem foldlM_appendDigit? (digits : List Char) {value : Int64} (nonneg : 0 ≤ value.toInt) :
    digits.foldlM appendDigit? value = Integer.narrow?
      (digits.foldl (fun value c => 10 * value + digitValue c) value.toInt.toNat : Nat) := by
  -- A number without room stays without, since no later digit makes it smaller.
  induction digits generalizing value with
  | nil =>
    symm
    rw [List.foldl_nil, Int.toNat_of_nonneg nonneg]
    exact Integer.narrow?_eq_some_iff.mpr rfl
  | cons c rest ih =>
    have start : ((10 * value.toInt.toNat + digitValue c : Nat) : Int) =
        10 * value.toInt + digitValue c := by omega
    rw [List.foldlM_cons, appendDigit?_eq nonneg, List.foldl_cons, ← start]
    cases next : Integer.narrow? (10 * value.toInt.toNat + digitValue c : Nat) with
    | none =>
      have more := Int.ofNat_le.mpr
        (Text.le_foldl_digits rest (10 * value.toInt.toNat + digitValue c))
      rw [Integer.narrow?_none_of_le (Int.natCast_nonneg _) more next, Option.bind_eq_bind,
        Option.bind_none]
    | some number =>
      have same := Integer.narrow?_eq_some_iff.mp next
      rw [Option.bind_eq_bind, Option.bind_some, ih (same ▸ Int.natCast_nonneg _), same,
        Int.toNat_natCast]

/-- A run of digits has an integer exactly when its value is one of the machine integers. -/
theorem exactInteger?_eq (digits : List Char) :
    exactInteger? digits = Integer.narrow? (decimalValue digits) :=
  foldlM_appendDigit? digits (Int.le_refl 0)

/-- Digits in front of a text are read as far as they go, without blanks or a sign. -/
theorem leadingInteger?_digits {digits rest : List Char} (run : isDigits digits = true)
    (stop : rest.head?.any Char.isDigit = false) :
    leadingInteger? (digits ++ rest) = some (Integer.saturate (decimalValue digits)) := by
  -- The text starts with a digit, which is neither a blank nor a sign.
  obtain ⟨filled, each⟩ := Text.isDigits_iff.mp run
  have unsigned (c : Char) (foreign : c.isDigit = false) : (digits ++ rest).head? ≠ some c := by
    intro first
    rw [List.head?_append_of_ne_nil _ filled] at first
    exact Text.not_mem_digits run foreign (List.mem_of_head? first)
  have unblank : (digits ++ rest).head?.any Text.isBlank = false := by
    obtain ⟨c, others, rfl⟩ := List.exists_cons_of_ne_nil filled
    simpa using Text.isBlank_digit (each c List.mem_cons_self)
  -- So the digits are one part of the only way to cut the text.
  let parts : LeadingParts (digits ++ rest) :=
    { blanks := [], sign := [], digits, rest, whole := rfl, blank := nofun, filled := unblank
      marked := Or.inl rfl, unmarked := fun _ => ⟨unsigned '+' rfl, unsigned '-' rfl⟩
      digit := each, stop }
  rw [leadingInteger?_parts parts, if_neg filled]
  rfl

/-- Whether a token is classified or kept as text makes no difference to its integer. -/
theorem integer?_classify (token : String) :
    integer? (classify token) = integer? (.text token) := by
  unfold classify
  split
  · rename_i run
    have alone := @leadingInteger?_digits token.toList [] run rfl
    rw [List.append_nil] at alone
    exact alone.symm
  · rfl

/-- A run of digits is taken for an integer, whichever way it is read and whatever unit follows. -/
structure ReadAs (token : String) (value : Int64) : Prop where
  /-- The integer is what the digits write, held to the largest machine integer. -/
  held : value.toInt = min (decimalValue token.toList : Int) Int64.maxValue.toInt
  classified : classify token = .number value
  /-- When the digits have no room on the way, the largest machine integer stands in. -/
  stepwise : (exactInteger? token.toList).getD Int64.maxValue = value
  kept : integer? (.text token) = some value
  /-- Behind the digits there may be any text that does not go on with a digit. -/
  unit : ∀ rest : String, rest.toList.head?.any Char.isDigit = false →
    ∀ arg, arg = classify (token ++ rest) ∨ arg = .text (token ++ rest) →
      integer? arg = some value ∧ Checked.integerOf? arg = .ok (some value) ∧
        ∀ (options : Options) (name : String) (position : Nat),
          options.find? name position = some arg → options.integer? name position = some value

/--
A run of digits of any length is taken for the same integer by every reader.

As a token it is classified as a number, whose digits are read one by one until there is no room for
them. As text its leading digits are read with every product and sum held to the machine integers.
Both come to the value of the digits, held to the largest machine integer, and so does every option
that is found to be the digits with a unit behind them.
-/
theorem digits_read_alike {token : String} (run : isDigits token.toList = true) :
    ReadAs token (Integer.saturate (decimalValue token.toList)) := by
  have nonneg : (0 : Int) ≤ decimalValue token.toList := Int.natCast_nonneg _
  have read (rest : String) (stop : rest.toList.head?.any Char.isDigit = false) :
      integer? (.text (token ++ rest)) = some (Integer.saturate (decimalValue token.toList)) := by
    rw [integer?, String.toList_append]
    exact leadingInteger?_digits run stop
  refine ⟨?_, ?_, ?_, ?_, ?_⟩
  · rw [Integer.toInt_saturate, Int64.toInt_minValue, Int64.toInt_maxValue]
    omega
  · rw [classify, if_pos run]
  · rw [exactInteger?_eq, Integer.getD_narrow? nonneg]
  · simpa using read "" rfl
  · intro rest stop arg spelt
    -- Both spellings of an argument are taken for the integer of its text.
    have found : integer? arg = some (Integer.saturate (decimalValue token.toList)) := by
      rcases spelt with rfl | rfl
      · rw [integer?_classify, read rest stop]
      · exact read rest stop
    refine ⟨found, by rw [Checked.integerOf?_eq, found], ?_⟩
    intro options name position option
    rw [Options.integer?, option, Option.bind_some, found]

/-- Digits with zeros in front that have no room are read alike. -/
theorem padded_overflow_read_alike :
    isDigits "0099999999999999999999".toList = true ∧
      ReadAs "0099999999999999999999"
        (Integer.saturate (decimalValue "0099999999999999999999".toList)) := by
  have run : isDigits "0099999999999999999999".toList = true := by decide
  exact ⟨run, digits_read_alike run⟩

end Arg

end Placeholder

import Placeholder.Proofs.Text.Pieces
import Placeholder.Proofs.Value.Json

/-! JSON texts hold no control characters, so that each of them is a line of its own. -/

namespace Placeholder

namespace Text

/-- A text without the control characters in front of the space. -/
def Printed (text : List Char) : Prop :=
  ∀ c ∈ text, 0x20 ≤ c.toNat

instance (text : List Char) : Decidable (Printed text) :=
  List.decidableBAll (fun c : Char => 0x20 ≤ c.toNat) text

/-- A first character is printed like all the others. -/
theorem printed_cons {c : Char} {text : List Char} :
    Printed (c :: text) ↔ 0x20 ≤ c.toNat ∧ Printed text :=
  List.forall_mem_cons

/-- Texts that follow each other are printed when each of them is. -/
theorem printed_append {text rest : List Char} :
    Printed (text ++ rest) ↔ Printed text ∧ Printed rest :=
  List.forall_mem_append

/-- Digits are printed. -/
theorem printed_digits {text : List Char} (digits : ∀ c ∈ text, c.isDigit = true) :
    Printed text := by
  intro c member
  have zero : '0'.toNat = 48 := rfl
  have bounds := Char.isDigit_iff_toNat.mp (digits c member)
  omega

/-- The digits of a number are printed. -/
theorem printed_decimalDigits (value : Nat) : Printed (decimalDigits value) :=
  printed_digits (isDigits_iff.mp (isDigits_decimalDigits value)).2

/-- A printed character between printed segments keeps all of them printed. -/
theorem printed_intercalate {separator : Char} (mark : 0x20 ≤ separator.toNat)
    {segments : List (List Char)} (each : ∀ segment ∈ segments, Printed segment) :
    Printed ([separator].intercalate segments) := by
  -- A character that is not printed is neither the separator nor in any segment.
  intro c member
  by_contra control
  have differs : c ≠ separator := by
    rintro rfl
    exact control mark
  exact not_mem_intercalate differs
    (fun segment among within => control (each segment among c within)) member

/-- A line feed is a control character. -/
theorem Printed.not_mem_lineFeed {text : List Char} (printed : Printed text) : '\n' ∉ text :=
  fun member => absurd (printed _ member) (by decide)

end Text

open Text

namespace Spelling

/-- A positional text is made of its digits, zeros and a point. -/
theorem printed_positionalText (spelling : Spelling) {digits : List Char}
    (printed : Printed digits) (exponent : Int) :
    Printed (spelling.positionalText digits exponent) := by
  have zeros : ∀ count, Printed (List.replicate count '0') := by
    intro count c member
    rw [List.eq_of_mem_replicate member]
    decide
  unfold positionalText
  dsimp only
  split
  · refine printed_append.mpr ⟨printed_append.mpr ⟨printed, zeros _⟩, ?_⟩
    split
    · decide
    · decide
  · split
    · -- The point stands between two parts of the digits.
      refine printed_append.mpr ⟨?_, printed_cons.mpr ⟨by decide, ?_⟩⟩
      · exact fun c member => printed c (List.mem_of_mem_take member)
      · exact fun c member => printed c (List.mem_of_mem_drop member)
    · exact printed_cons.mpr ⟨by decide, printed_cons.mpr ⟨by decide,
        printed_append.mpr ⟨zeros _, printed⟩⟩⟩

/-- A scientific text is made of its digits, a point, a mark, a sign and the exponent. -/
theorem printed_scientificText (spelling : Spelling) {digits : List Char}
    (printed : Printed digits) (leading : Int) :
    Printed (spelling.scientificText digits leading) := by
  unfold scientificText
  dsimp only
  refine printed_append.mpr ⟨?_, printed_cons.mpr ⟨by decide, printed_append.mpr
    ⟨?_, printed_decimalDigits _⟩⟩⟩
  · split
    · exact printed
    · exact printed
    · obtain ⟨first, others⟩ := printed_cons.mp printed
      exact printed_cons.mpr ⟨first, printed_cons.mpr ⟨by decide, others⟩⟩
  · split
    · decide
    · split
      · decide
      · decide

/-- A magnitude has a printed text in every spelling. -/
theorem printed_magnitudeText (spelling : Spelling) (units : Nat) :
    Printed (spelling.magnitudeText units) := by
  unfold magnitudeText
  split
  · exact spelling.printed_positionalText (by decide) 0
  · dsimp only
    split
    · exact spelling.printed_positionalText (printed_decimalDigits _) _
    · exact spelling.printed_scientificText (printed_decimalDigits _) _

/-- The JSON text of a float is printed, be the float a number or not. -/
theorem printed_json (number : Binary64) : Printed (json.text number).toList := by
  cases number with
  | nan => decide
  | infinity negative =>
    cases negative with
    | true => decide
    | false => decide
  | finite negative units fits =>
    rw [text, String.toList_ofList]
    refine printed_append.mpr ⟨?_, json.printed_magnitudeText units⟩
    cases negative with
    | true => decide
    | false => decide

end Spelling

namespace Value

/-- Every character is printed once it is escaped. -/
theorem printed_escaped (c : Char) : Printed (escaped c) := by
  have hex : ∀ code < 0x20,
      Printed ['\\', 'u', '0', '0', hexDigit (code / 16), hexDigit (code % 16)] := by
    decide
  unfold escaped
  split
  case h_8 =>
    split
    · exact hex c.toNat ‹_›
    · exact printed_cons.mpr ⟨Nat.not_lt.mp ‹_›, by decide⟩
  all_goals decide

/-- A string between quotes is printed, whatever characters it holds. -/
theorem printed_quoted (text : String) : Printed (quoted text).toList := by
  rw [quoted, String.toList_ofList]
  refine printed_cons.mpr ⟨by decide, printed_append.mpr ⟨?_, by decide⟩⟩
  intro c member
  obtain ⟨source, _, within⟩ := List.mem_flatMap.mp member
  exact printed_escaped source c within

/-- An integer is printed with digits and at most one sign. -/
theorem printed_integer (value : Int) : Printed (toString value).toList := by
  rcases value with size | before
  · have digits : (toString (Int.ofNat size)).toList = decimalDigits size := Nat.toList_repr
    rw [digits]
    exact printed_decimalDigits size
  · have digits : (toString (Int.negSucc before)).toList = '-' :: decimalDigits (before + 1) := by
      show ("-" ++ toString (before + 1)).toList = _
      rw [String.toList_append]
      exact congrArg _ Nat.toList_repr
    rw [digits]
    exact printed_cons.mpr ⟨by decide, printed_decimalDigits _⟩

/-- The JSON text of a value is printed, however deep the strings are in it. -/
theorem printed_toJson (value : Value) : Printed value.toJson.toList := by
  induction value with
  | null => decide
  | bool value =>
    cases value with
    | true => decide
    | false => decide
  | int value => exact printed_integer value.toInt
  | float value => exact Spelling.printed_json value
  | string value => exact printed_quoted value
  | array items ih =>
    have form := toList_toJson_array items []
    rw [List.append_nil] at form
    rw [form]
    refine printed_cons.mpr ⟨by decide, printed_append.mpr ⟨?_, by decide⟩⟩
    refine printed_intercalate (by decide) fun segment member => ?_
    obtain ⟨item, among, rfl⟩ := List.mem_map.mp member
    exact ih item among
  | object fields ih =>
    have form := toList_toJson_object fields []
    rw [List.append_nil] at form
    rw [form]
    refine printed_cons.mpr ⟨by decide, printed_append.mpr ⟨?_, by decide⟩⟩
    refine printed_intercalate (by decide) fun segment member => ?_
    obtain ⟨field, among, rfl⟩ := List.mem_map.mp member
    exact printed_append.mpr ⟨printed_quoted field.1,
      printed_cons.mpr ⟨by decide, ih field among⟩⟩

end Value

end Placeholder

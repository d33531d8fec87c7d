import Placeholder.Binary64.Bits
import Placeholder.Proofs.Decimal.Trimmed
import Placeholder.Proofs.Text.Runs
import Placeholder.Value.Text

/-! Plain text is the JSON text of all values but strings and most floats. -/

namespace Placeholder

/-- The exponent of the first digit of a decimal. -/
def Decimal.leading (decimal : Decimal) : Int :=
  decimal.exponent + (Text.decimalDigits decimal.significand).length - 1

namespace Spelling

/-- The number that the digits of a text make, and how much of the text is behind its first ones. -/
def shown (text : List Char) : Nat × Nat :=
  (Text.decimalValue (text.filter Char.isDigit), (text.dropWhile Char.isDigit).length)

/-- Digits alone show their number. -/
theorem shown_digits {digits : List Char} (run : ∀ c ∈ digits, c.isDigit = true) :
    shown digits = (Text.decimalValue digits, 0) := by
  have nothing := @Text.dropWhile_run _ _ [] run rfl
  rw [List.append_nil] at nothing
  rw [shown, List.filter_eq_self.mpr run, nothing, List.length_nil]

/-- Digits around a point show the number without the point, and where the point is. -/
theorem shown_point {whole fraction : List Char} (before : ∀ c ∈ whole, c.isDigit = true)
    (behind : ∀ c ∈ fraction, c.isDigit = true) :
    shown (whole ++ '.' :: fraction) =
      (Text.decimalValue (whole ++ fraction), fraction.length + 1) := by
  have point : Char.isDigit '.' = false := rfl
  rw [shown, Text.dropWhile_run before (by simp [point]), List.filter_append,
    List.filter_cons_of_neg (by simp [point]), List.filter_eq_self.mpr before,
    List.filter_eq_self.mpr behind, List.length_cons]

section Positional

variable {digits : List Char} {exponent : Int} (run : ∀ c ∈ digits, c.isDigit = true)

include run

/-- Digits that reach behind the point show their number and their exponent in every spelling. -/
theorem shown_behind (spelling : Spelling) (behind : exponent < 0) :
    shown (spelling.positionalText digits exponent) =
      (Text.decimalValue digits, (-exponent).toNat + 1) := by
  rw [positionalText, if_neg (Int.not_le.mpr behind)]
  dsimp only
  split
  · rename_i inside
    rw [shown_point (fun c member => run c (List.mem_of_mem_take member))
      (fun c member => run c (List.mem_of_mem_drop member)), List.take_append_drop,
      List.length_drop, Nat.sub_sub_self (Nat.le_of_lt inside)]
  · -- The zeros in front count for nothing, and fill up the places.
    rename_i outside
    have zeros := Text.forall_zeros_isDigit ((-exponent).toNat - digits.length)
    have parts :=
      shown_point (Text.forall_zeros_isDigit 1) (List.forall_mem_append.mpr ⟨zeros, run⟩)
    refine parts.trans ?_
    rw [List.replicate_one, Text.decimalValue_behind_zeros, List.length_append,
      List.length_replicate, Nat.sub_add_cancel (Nat.le_of_not_lt outside)]

/-- Digits that end in front of the point show a zero behind it in JSON. -/
theorem shown_json_whole (whole : 0 ≤ exponent) :
    shown (json.positionalText digits exponent) =
      (Text.decimalValue digits * 10 ^ (exponent.toNat + 1), 2) := by
  have shifted := List.forall_mem_append.mpr ⟨run, Text.forall_zeros_isDigit exponent.toNat⟩
  have parts := shown_point shifted (Text.forall_zeros_isDigit 1)
  rw [positionalText, if_pos whole]
  refine parts.trans ?_
  rw [List.append_assoc, List.replicate_append_replicate, Text.decimalValue_append,
    Text.decimalValue_zeros, List.length_replicate, List.length_replicate, Nat.add_zero]

/-- Digits that end in front of the point show nothing behind it in plain text. -/
theorem shown_plain_whole (whole : 0 ≤ exponent) :
    (shown (plain.positionalText digits exponent)).2 = 0 := by
  have shifted := List.forall_mem_append.mpr ⟨run, Text.forall_zeros_isDigit exponent.toNat⟩
  rw [positionalText, if_pos whole, plain, if_neg Bool.false_ne_true, List.append_nil,
    shown_digits shifted]

/-- No positional text has an exponent. -/
theorem mark_not_mem_positionalText (spelling : Spelling) :
    'e' ∉ spelling.positionalText digits exponent := by
  have absent : 'e' ∉ digits := fun member => absurd (run 'e' member) (by decide)
  rw [positionalText]
  split
  · split
    · simp [absent]
    · simp [absent]
  · dsimp only
    split
    · simp only [List.mem_append, List.mem_cons, not_or]
      exact ⟨fun member => absent (List.mem_of_mem_take member), by decide,
        fun member => absent (List.mem_of_mem_drop member)⟩
    · simp [absent]

end Positional

/-- Every scientific text has an exponent. -/
theorem mark_mem_scientificText (spelling : Spelling) (digits : List Char) (leading : Int) :
    'e' ∈ spelling.scientificText digits leading := by
  simp [scientificText]

/-- The spellings differ in the point of whole numbers only. -/
theorem positionalText_behind (spelling other : Spelling) (digits : List Char) {exponent : Int}
    (behind : exponent < 0) :
    spelling.positionalText digits exponent = other.positionalText digits exponent := by
  rw [positionalText, positionalText, if_neg (Int.not_le.mpr behind),
    if_neg (Int.not_le.mpr behind)]

/-- JSON shows a decimal like plain text shows one without a zero at the end. -/
theorem eq_of_positionalText_eq {decimal other : Decimal} (trimmed : decimal.significand % 10 ≠ 0)
    (same : plain.positionalText (Text.decimalDigits decimal.significand) decimal.exponent =
      json.positionalText (Text.decimalDigits other.significand) other.exponent) :
    decimal = other ∧ other.exponent < 0 := by
  have run := (Text.isDigits_iff.mp (Text.isDigits_decimalDigits decimal.significand)).2
  have otherRun := (Text.isDigits_iff.mp (Text.isDigits_decimalDigits other.significand)).2
  have shows := congrArg shown same
  -- In plain text a whole number shows no place behind the point, but JSON always shows some.
  have behind : decimal.exponent < 0 := by
    apply Int.not_le.mp
    intro whole
    have places := shown_plain_whole run whole
    rw [shows] at places
    rcases Int.lt_or_le other.exponent 0 with otherBehind | otherWhole
    · simp [shown_behind otherRun json otherBehind] at places
    · simp [shown_json_whole otherRun otherWhole] at places
  rw [shown_behind run plain behind, Text.decimalValue_decimalDigits] at shows
  rcases Int.lt_or_le other.exponent 0 with otherBehind | otherWhole
  · rw [shown_behind otherRun json otherBehind, Text.decimalValue_decimalDigits,
      Prod.mk.injEq] at shows
    obtain ⟨significands, places⟩ := shows
    obtain ⟨significand, exponent⟩ := decimal
    obtain ⟨otherSignificand, otherExponent⟩ := other
    dsimp only at significands places behind otherBehind ⊢
    have exponents : exponent = otherExponent := by omega
    exact ⟨by rw [significands, exponents], otherBehind⟩
  · -- The zero that JSON puts behind the point would be at the end of the digits.
    rw [shown_json_whole otherRun otherWhole, Prod.mk.injEq] at shows
    rw [shows.1, Nat.pow_succ, ← Nat.mul_assoc, Nat.mul_mod_left] at trimmed
    exact absurd rfl trimmed

/-- A magnitude other than zero is written with its shortest digits. -/
theorem magnitudeText_of_pos (spelling : Spelling) {units : Nat} (filled : 0 < units) :
    spelling.magnitudeText units =
      let decimal := Decimal.shortest spelling.tie units
      if spelling.positional decimal.leading then
        spelling.positionalText (Text.decimalDigits decimal.significand) decimal.exponent
      else spelling.scientificText (Text.decimalDigits decimal.significand) decimal.leading := by
  unfold magnitudeText Decimal.leading
  rw [if_neg (Nat.ne_of_gt filled)]

/-- JSON writes a magnitude as plain text does when both show the same digits behind a point. -/
theorem magnitudeText_eq_iff {units : Nat} (filled : 0 < units) :
    plain.magnitudeText units = json.magnitudeText units ↔
      Decimal.shortest .away units = Decimal.shortest .even units ∧
      (Decimal.shortest .even units).exponent < 0 ∧
      moderate (Decimal.shortest .even units).leading = true := by
  have trimmed := Decimal.shortest_mod_ten .away filled
  have plainChoices : plain.tie = .away ∧ plain.positional = fun _ => true := ⟨rfl, rfl⟩
  have jsonChoices : json.tie = .even ∧ json.positional = moderate := ⟨rfl, rfl⟩
  rw [magnitudeText_of_pos plain filled, magnitudeText_of_pos json filled, plainChoices.1,
    plainChoices.2, jsonChoices.1, jsonChoices.2, if_pos rfl]
  generalize Decimal.shortest .away units = decimal at trimmed ⊢
  generalize Decimal.shortest .even units = other
  dsimp only
  constructor
  · intro same
    split at same
    · rename_i near
      obtain ⟨decimals, behind⟩ := eq_of_positionalText_eq trimmed same
      exact ⟨decimals, behind, near⟩
    · -- Plain text never has the exponent that JSON writes.
      have run := (Text.isDigits_iff.mp (Text.isDigits_decimalDigits decimal.significand)).2
      have mark := mark_mem_scientificText json (Text.decimalDigits other.significand) other.leading
      rw [← same] at mark
      exact absurd mark (mark_not_mem_positionalText run plain)
  · rintro ⟨same, behind, near⟩
    rw [if_pos near, same]
    exact positionalText_behind plain json _ behind

end Spelling

/--
A float whose shortest digits JSON writes like plain text.

The digits stay the same whichever of two equally near ones is chosen, the last of them is behind
the point, and the first is near enough to the point for JSON to write no exponent.
-/
def Binary64.SpeltAlike : Binary64 → Prop
  | .finite _ units _ =>
    0 < units ∧ Decimal.shortest .away units = Decimal.shortest .even units ∧
      (Decimal.shortest .even units).exponent < 0 ∧
      Spelling.moderate (Decimal.shortest .even units).leading = true
  | _ => False

instance : DecidablePred Binary64.SpeltAlike
  | .nan | .infinity _ => isFalse id
  | .finite .. => inferInstanceAs (Decidable (_ ∧ _))

/-- JSON writes a float as plain text does when it is spelt alike. -/
theorem Spelling.text_eq_iff {number : Binary64} :
    plain.text number = json.text number ↔ number.SpeltAlike := by
  cases number with
  | nan => exact iff_of_false (by decide) id
  | infinity negative =>
    refine iff_of_false ?_ id
    cases negative with
    | false => decide
    | true => decide
  | finite negative units representable =>
    rw [text, text, String.ofList_inj, List.append_cancel_left_eq, Binary64.SpeltAlike]
    rcases Nat.eq_zero_or_pos units with rfl | filled
    · -- JSON keeps the point of zero.
      exact iff_of_false (by decide) fun alike => absurd alike.1 (Nat.lt_irrefl 0)
    · rw [magnitudeText_eq_iff filled, and_iff_right filled]

namespace Value

/-- Plain text shows nothing for no value, a string bare, and any other value as JSON does. -/
structure ShownPlainly (value : Option Value) : Prop where
  absent : value = none → render value false = none ∧ render value true = some "null"
  bare : ∀ text, value = some (.string text) → render value false = some text
  same : ∀ other, value = some other → other.string? = none →
    render value false = render value true

/-- All that can be rendered is shown plainly, except for the floats that are not spelt alike. -/
theorem shownPlainly_iff (value : Option Value) :
    ShownPlainly value ↔ ∀ number, value = some (.float number) → number.SpeltAlike := by
  constructor
  · rintro shown number rfl
    exact Spelling.text_eq_iff.mp (Option.some.inj (shown.same _ rfl rfl))
  · intro alike
    refine ⟨?_, ?_, ?_⟩
    · rintro rfl
      exact ⟨rfl, rfl⟩
    · rintro text rfl
      rfl
    · rintro other rfl bare
      -- Only floats have a plain text of their own once strings are left out.
      cases other with
      | string text => cases bare
      | float number => exact congrArg some (Spelling.text_eq_iff.mpr (alike number rfl))
      | null | bool | int | array | object => rfl

/-- One and a half is spelt alike, but a quarter between two shortest decimals is not. -/
example : Binary64.SpeltAlike (.ofBits 0x3ff8000000000000) ∧
    ¬ Binary64.SpeltAlike (.ofBits 0x4310000000000001) := by
  decide +kernel

/-- Plain text leaves out the point of a whole number, which JSON keeps, also inside an array. -/
theorem whole_float_without_point :
    render (some (.float .one)) false = some "1" ∧
      render (some (.float .one)) true = some "1.0" ∧
      render (some (.array [.float .one])) false = some "[1.0]" ∧
      ¬ ShownPlainly (some (.float .one)) := by
  have plain : render (some (.float .one)) false = some "1" := by decide +kernel
  have json : render (some (.float .one)) true = some "1.0" := by decide +kernel
  refine ⟨plain, json, by decide +kernel, ?_⟩
  intro shown
  have same := shown.same _ rfl rfl
  rw [plain, json] at same
  exact absurd same (by decide)

end Value

end Placeholder

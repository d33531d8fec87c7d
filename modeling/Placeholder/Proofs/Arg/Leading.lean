import Placeholder.Proofs.Checked.Argument
import Placeholder.Proofs.Text.Runs

/-! Integers are read from the digits that a text starts with, behind blanks and one sign. -/

namespace Placeholder.Arg

open Text (isBlank decimalValue)

/-- The parts of a text that is taken for an integer, each of them as long as it can be. -/
@[ext] structure LeadingParts (text : List Char) where
  blanks : List Char
  sign : List Char
  digits : List Char
  rest : List Char
  whole : text = blanks ++ (sign ++ (digits ++ rest))
  blank : ∀ c ∈ blanks, isBlank c = true
  /-- What follows the blanks starts with no further one. -/
  filled : (sign ++ (digits ++ rest)).head?.any isBlank = false
  marked : sign = [] ∨ sign = ['+'] ∨ sign = ['-']
  /-- A sign is never left to the digits or the rest when none has been taken. -/
  unmarked : sign = [] → (digits ++ rest).head? ≠ some '+' ∧ (digits ++ rest).head? ≠ some '-'
  digit : ∀ c ∈ digits, c.isDigit = true
  /-- What follows the digits starts with no further one. -/
  stop : rest.head?.any Char.isDigit = false

namespace LeadingParts

variable {text : List Char}

/-- The integer that the digits write with their sign. -/
def value (parts : LeadingParts text) : Int :=
  if parts.sign = ['-'] then -decimalValue parts.digits else decimalValue parts.digits

/-- The sign with all that follows it is what trimming leaves. -/
theorem trimStart_eq (parts : LeadingParts text) :
    Text.trimStart text = parts.sign ++ (parts.digits ++ parts.rest) := by
  -- Trimming drops the run of blanks, which ends where the other parts begin.
  have dropped := Text.dropWhile_run parts.blank parts.filled
  rw [← parts.whole] at dropped
  exact dropped

/-- The digits are the longest run of them behind the sign. -/
theorem takeWhile_digits (parts : LeadingParts text) :
    (parts.digits ++ parts.rest).takeWhile Char.isDigit = parts.digits :=
  -- The rest starts with no digit that the run could go on with.
  Text.takeWhile_run parts.digit parts.stop

/-- The sign is settled by the first character behind the blanks. -/
theorem sign_eq (parts : LeadingParts text) :
    parts.sign =
      if (Text.trimStart text).head? = some '+' then ['+']
      else if (Text.trimStart text).head? = some '-' then ['-']
      else [] := by
  rw [parts.trimStart_eq]
  -- A sign is that character itself, and without one the character is neither of the two.
  rcases parts.marked with bare | plus | minus
  · obtain ⟨noPlus, noMinus⟩ := parts.unmarked bare
    rw [bare, List.nil_append, if_neg noPlus, if_neg noMinus]
  · simp [plus]
  · simp [minus]

/-- A text is cut into its parts in one way only. -/
theorem unique (parts other : LeadingParts text) : parts = other := by
  have sign : parts.sign = other.sign := by rw [parts.sign_eq, other.sign_eq]
  -- Behind the same sign both texts are the same, and the longest run of digits in them is one.
  have behind : parts.digits ++ parts.rest = other.digits ++ other.rest := by
    have same := parts.trimStart_eq.symm.trans other.trimStart_eq
    rw [sign] at same
    exact List.append_cancel_left same
  have digits : parts.digits = other.digits := by
    rw [← parts.takeWhile_digits, behind, other.takeWhile_digits]
  have rest : parts.rest = other.rest := by
    rw [digits] at behind
    exact List.append_cancel_left behind
  -- The blanks are what is left of the text in front of all that.
  have blanks : parts.blanks = other.blanks := by
    have whole := parts.whole.symm.trans other.whole
    rw [sign, digits, rest] at whole
    exact List.append_cancel_right whole
  exact LeadingParts.ext blanks sign digits rest

/-- The parts of a text behind given blanks and a sign that is settled. -/
def behind (sign : List Char) {blanks unsigned : List Char}
    (whole : text = blanks ++ (sign ++ unsigned)) (blank : ∀ c ∈ blanks, isBlank c = true)
    (filled : (sign ++ unsigned).head?.any isBlank = false)
    (marked : sign = [] ∨ sign = ['+'] ∨ sign = ['-'])
    (unmarked : sign = [] → unsigned.head? ≠ some '+' ∧ unsigned.head? ≠ some '-') :
    LeadingParts text where
  blanks := blanks
  sign := sign
  digits := unsigned.takeWhile Char.isDigit
  rest := unsigned.dropWhile Char.isDigit
  whole := by rw [List.takeWhile_append_dropWhile, whole]
  blank := blank
  filled := by rwa [List.takeWhile_append_dropWhile]
  marked := marked
  unmarked := by rwa [List.takeWhile_append_dropWhile]
  digit := List.all_eq_true.mp List.all_takeWhile
  stop := Text.stop_dropWhile Char.isDigit unsigned

/-- Every text has its parts. -/
theorem exists_parts (text : List Char) : Nonempty (LeadingParts text) := by
  have whole : text = text.takeWhile isBlank ++ Text.trimStart text :=
    List.takeWhile_append_dropWhile.symm
  have blank : ∀ c ∈ text.takeWhile isBlank, isBlank c = true :=
    List.all_eq_true.mp List.all_takeWhile
  have filled := Text.stop_dropWhile isBlank text
  change (Text.trimStart text).head?.any isBlank = false at filled
  generalize Text.trimStart text = trimmed at whole filled
  -- The first character behind the blanks decides whether there is a sign.
  by_cases plus : trimmed.head? = some '+'
  · obtain ⟨unsigned, rfl⟩ := List.head?_eq_some_iff.mp plus
    exact ⟨behind ['+'] whole blank filled (by simp) (by simp)⟩
  · by_cases minus : trimmed.head? = some '-'
    · obtain ⟨unsigned, rfl⟩ := List.head?_eq_some_iff.mp minus
      exact ⟨behind ['-'] whole blank filled (by simp) (by simp)⟩
    · exact ⟨behind [] whole blank filled (by simp) fun _ => ⟨plus, minus⟩⟩

end LeadingParts

/-- The parts of a text are all that its integer depends on. -/
theorem leadingInteger?_parts {text : List Char} (parts : LeadingParts text) :
    leadingInteger? text =
      if parts.digits = [] then none
      else
        some (if parts.sign = ['-'] then -Integer.saturate (decimalValue parts.digits)
          else Integer.saturate (decimalValue parts.digits)) := by
  have run := parts.takeWhile_digits
  unfold leadingInteger?
  rw [parts.trimStart_eq]
  -- The sign is the only part that decides between the branches in front of the digits.
  rcases parts.marked with bare | plus | minus
  · obtain ⟨noPlus, noMinus⟩ := parts.unmarked bare
    rw [bare, List.nil_append]
    split
    rename_i negative unsigned branch
    split at branch
    · rename_i starts
      rw [starts] at noMinus
      simp at noMinus
    · rename_i starts
      rw [starts] at noPlus
      simp at noPlus
    · cases branch
      rw [run]
      cases parts.digits <;> simp
  · rw [plus]
    simp only [List.singleton_append, run]
    cases parts.digits <;> simp
  · rw [minus]
    simp only [List.singleton_append, run]
    cases parts.digits <;> simp

/-- A text without leading digits is taken for no integer, and any other one for an integer. -/
theorem leadingInteger?_eq_none_iff {text : List Char} (parts : LeadingParts text) :
    leadingInteger? text = none ↔ parts.digits = [] := by
  -- Only the branch without digits gives nothing.
  simp [leadingInteger?_parts parts]

/-- The opposite of a saturated magnitude is the opposite integer. -/
theorem toInt_neg_saturate (magnitude : Nat) :
    (-Integer.saturate magnitude).toInt = -(Integer.saturate magnitude).toInt := by
  -- A magnitude that is held to the largest integer is never the one without an opposite.
  have nonneg := Integer.toInt_saturate_nonneg (Int.natCast_nonneg magnitude)
  have bounded := Int64.toInt_le (Integer.saturate magnitude)
  rw [Int64.toInt_maxValue] at bounded
  rw [Int64.toInt_neg]
  apply Int.bmod_eq_of_le <;> omega

/-- The integer that is read is held to the largest machine integer and to its opposite. -/
theorem toInt_of_leadingInteger? {text : List Char} (parts : LeadingParts text) {read : Int64}
    (found : leadingInteger? text = some read) :
    read.toInt = max (-Int64.maxValue.toInt) (min parts.value Int64.maxValue.toInt) := by
  rw [leadingInteger?_parts parts] at found
  have held := Integer.toInt_saturate (decimalValue parts.digits)
  rw [Int64.toInt_minValue, Int64.toInt_maxValue] at held
  rw [Int64.toInt_maxValue, LeadingParts.value]
  -- The magnitude is held to the limit first, and the sign is put in front of it afterwards.
  split at found
  · cases found
  · by_cases minus : parts.sign = ['-']
    · rw [if_pos minus] at found ⊢
      rw [← Option.some.inj found, toInt_neg_saturate, held]
      omega
    · rw [if_neg minus] at found ⊢
      rw [← Option.some.inj found, held]
      omega

/-- The integer that is read is the nearest one unless the least machine integer would be that. -/
theorem eq_saturate_iff {text : List Char} (parts : LeadingParts text) {read : Int64}
    (found : leadingInteger? text = some read) :
    read = Integer.saturate parts.value ↔ Int64.minValue.toInt < parts.value := by
  have value := toInt_of_leadingInteger? parts found
  have nearest := Integer.toInt_saturate parts.value
  rw [Int64.toInt_minValue, Int64.toInt_maxValue] at nearest
  rw [Int64.toInt_maxValue] at value
  -- Both are limits of the same integer, which differ by one at their lower ends.
  rw [← Int64.toInt_inj, value, nearest, Int64.toInt_minValue]
  omega

/--
A text is taken for the integer that its leading digits write.

Blanks and one sign may stand in front of the digits, and anything behind them. Reading the digits
one by one, with every product and sum held to the machine integers, meets no fault and comes to
the same integer. It is the machine integer nearest to what the digits write, except that the sign
is put in front of the magnitude after that was held to the largest integer: so the least machine
integer and all integers below it are taken for the one above it.
-/
theorem integer?_reads_leading_digits (text : String) :
    ∃ parts : LeadingParts text.toList, (∀ other, other = parts) ∧
      Checked.integerOf? (.text text) = .ok (integer? (.text text)) ∧
      (integer? (.text text) = none ↔ parts.digits = []) ∧
      ∀ read, integer? (.text text) = some read →
        read.toInt = max (-Int64.maxValue.toInt) (min parts.value Int64.maxValue.toInt) ∧
        (read = Integer.saturate parts.value ↔ Int64.minValue.toInt < parts.value) := by
  obtain ⟨parts⟩ := LeadingParts.exists_parts text.toList
  refine ⟨parts, fun other => other.unique parts, Checked.integerOf?_eq _,
    leadingInteger?_eq_none_iff parts, ?_⟩
  intro read found
  exact ⟨toInt_of_leadingInteger? parts found, eq_saturate_iff parts found⟩

/-- The digits of the least machine integer are read as the integer above it. -/
theorem least_integer_read_one_above :
    ∃ parts : LeadingParts "-9223372036854775808".toList,
      parts.value = Int64.minValue.toInt ∧
      integer? (.text "-9223372036854775808") = some (-9223372036854775807) ∧
      integer? (.text "-9223372036854775808") ≠ some (Integer.saturate parts.value) := by
  let digits := "9223372036854775808".toList
  let parts : LeadingParts "-9223372036854775808".toList :=
    @LeadingParts.behind _ ['-'] [] digits rfl (by simp) rfl (by simp) (by simp)
  have value : parts.value = Int64.minValue.toInt := rfl
  have read : integer? (.text "-9223372036854775808") = some (-9223372036854775807) := rfl
  refine ⟨parts, value, read, ?_⟩
  -- The least machine integer is its own nearest one, and another one was read.
  rw [read, value, Integer.saturate_toInt]
  decide

end Placeholder.Arg

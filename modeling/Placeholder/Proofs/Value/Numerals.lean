import Placeholder.Proofs.Text.Digits
import Placeholder.Proofs.Text.Runs
import Placeholder.Value.Number

/-! Numbers of JSON texts are read part by part, up to the first character that is in none. -/

namespace Placeholder.Value

/-- The parts of an unsigned number: whole digits, fraction digits, and a signed exponent. -/
structure Numeral where
  whole : List Char
  fraction : List Char := []
  exponent : Option (Bool × Nat) := none

namespace Numeral

/-- The text of an exponent part, which always has a sign. -/
def exponentText : Option (Bool × Nat) → List Char
  | none => []
  | some (below, size) => 'e' :: (if below then '-' else '+') :: Text.decimalDigits size

/-- The text of a fraction part, which is left out without digits. -/
def fractionText (fraction : List Char) : List Char :=
  if fraction.isEmpty then [] else '.' :: fraction

/-- The text of a numeral. -/
def text (numeral : Numeral) : List Char :=
  numeral.whole ++ (fractionText numeral.fraction ++ exponentText numeral.exponent)

/-- The parts of a numeral are digits, and a zero in front stands alone. -/
structure WellFormed (numeral : Numeral) : Prop where
  whole : Text.isDigits numeral.whole = true
  zero : numeral.whole.head? = some '0' → numeral.whole = ['0']
  fraction : ∀ c ∈ numeral.fraction, c.isDigit = true

/-- The number that the parts are read as, if it does not overflow. -/
def value? (negative : Bool) (numeral : Numeral) : Option Value :=
  let (wholeValue, dropped) := accumulate 0 numeral.whole
  let (significand, ignored) := accumulate wholeValue numeral.fraction
  if numeral.fraction.isEmpty && numeral.exponent.isNone && dropped.isEmpty then
    some (ofSignificand negative significand)
  else
    let shift : Int := dropped.length - (numeral.fraction.length - ignored.length)
    let magnitude? :=
      match numeral.exponent with
      | none => scale? (Binary64.ofInt significand) shift
      | some (below, size) =>
        if Int32.maxValue.toInt < size then
          if significand = 0 ∨ below then some .zero else none
        else scale? (Binary64.ofInt significand) (if below then shift - size else shift + size)
    magnitude?.map fun magnitude => .float (signed negative magnitude)

end Numeral

/-- A character that may go on a number. -/
def isNumberChar (c : Char) : Bool :=
  c.isDigit || c == '.' || c == 'e' || c == 'E'

/-- A text that does not go on a number in front of it. -/
def EndsNumber (rest : List Char) : Prop :=
  rest.head?.any isNumberChar = false

/-- What ends a number starts with none of the characters of one. -/
theorem EndsNumber.head {rest : List Char} (ends : EndsNumber rest) :
    rest.head?.any Char.isDigit = false ∧ (∀ others, rest ≠ '.' :: others) ∧
      ∀ c others, rest = c :: others → ¬ (c = 'e' ∨ c = 'E') := by
  cases rest with
  | nil => simp
  | cons c rest =>
    have other : isNumberChar c = false := by simpa [EndsNumber] using ends
    simp only [isNumberChar, Bool.or_eq_false_iff, beq_eq_false_iff_ne] at other
    obtain ⟨⟨⟨digit, point⟩, small⟩, large⟩ := other
    refine ⟨by simpa using digit, ?_, ?_⟩
    · intro others same
      exact point (List.cons.inj same).1
    · intro d others same
      rw [← (List.cons.inj same).1]
      exact not_or.mpr ⟨small, large⟩

/-- Whole digits are read up to the first other character. -/
theorem wholePart?_append {whole rest : List Char} (digits : Text.isDigits whole = true)
    (zero : whole.head? = some '0' → whole = ['0']) (stop : rest.head?.any Char.isDigit = false) :
    wholePart? (whole ++ rest) = some (whole, rest) := by
  obtain ⟨filled, each⟩ := Text.isDigits_iff.mp digits
  rw [wholePart?, Text.takeWhile_run each stop, Text.dropWhile_run each stop]
  split
  · exact absurd rfl filled
  · cases zero rfl
  · rfl

/-- Fraction digits are read up to the first other character, and may be left out. -/
theorem fractionPart?_append {fraction rest : List Char}
    (digits : ∀ c ∈ fraction, c.isDigit = true) (stop : rest.head?.any Char.isDigit = false)
    (noPoint : ∀ others, rest ≠ '.' :: others) :
    fractionPart? (Numeral.fractionText fraction ++ rest) = some (fraction, rest) := by
  unfold Numeral.fractionText
  cases fraction with
  | nil =>
    show fractionPart? rest = _
    unfold fractionPart?
    split
    · exact absurd rfl (noPoint _)
    · rfl
  | cons c fraction =>
    show fractionPart? ('.' :: (c :: fraction ++ rest)) = _
    rw [fractionPart?, Text.takeWhile_run digits stop, Text.dropWhile_run digits stop]

/-- An exponent part is read with its sign, and may be left out. -/
theorem exponentPart?_append (exponent : Option (Bool × Nat)) {rest : List Char}
    (ends : EndsNumber rest) :
    exponentPart? (Numeral.exponentText exponent ++ rest) = some (exponent, rest) := by
  obtain ⟨stop, -, noMark⟩ := ends.head
  cases exponent with
  | none =>
    show exponentPart? rest = _
    cases rest with
    | nil => rfl
    | cons c rest =>
      unfold exponentPart?
      dsimp only
      rw [if_neg (noMark c rest rfl)]
  | some part =>
    obtain ⟨below, size⟩ := part
    obtain ⟨filled, each⟩ := Text.isDigits_iff.mp (Text.isDigits_decimalDigits size)
    have taken := Text.takeWhile_run each stop
    have left := Text.dropWhile_run each stop
    have value := Text.decimalValue_decimalDigits size
    show exponentPart?
      ('e' :: (if below then '-' else '+') :: (Text.decimalDigits size ++ rest)) = _
    -- The reader wants to see a first digit behind the sign.
    generalize Text.decimalDigits size = digits at filled taken left value ⊢
    cases digits with
    | nil => exact absurd rfl filled
    | cons c digits =>
      cases below with
      | true =>
        show exponentPart? ('e' :: '-' :: (c :: digits ++ rest)) = _
        rw [exponentPart?, if_pos (Or.inl rfl), taken, left, ← value]
      | false =>
        show exponentPart? ('e' :: '+' :: (c :: digits ++ rest)) = _
        rw [exponentPart?, if_pos (Or.inl rfl), taken, left, ← value]

/-- A numeral is read up to what ends it. -/
theorem number?_numeral {numeral : Numeral} (wellFormed : numeral.WellFormed) (negative : Bool)
    {rest : List Char} (ends : EndsNumber rest) :
    number? negative (numeral.text ++ rest) = (numeral.value? negative).map (·, rest) := by
  obtain ⟨stop, noPoint, -⟩ := ends.head
  -- Each part ends where the next one begins, if that is there, or else where the rest does.
  have exponentStop : (Numeral.exponentText numeral.exponent ++ rest).head?.any Char.isDigit =
      false ∧ ∀ others, Numeral.exponentText numeral.exponent ++ rest ≠ '.' :: others := by
    cases numeral.exponent with
    | none => exact ⟨stop, noPoint⟩
    | some part => exact ⟨rfl, fun others same => by cases same⟩
  have fractionStop : (Numeral.fractionText numeral.fraction ++
      (Numeral.exponentText numeral.exponent ++ rest)).head?.any Char.isDigit = false := by
    cases numeral.fraction with
    | nil => exact exponentStop.1
    | cons c others => rfl
  have parts : numeral.text ++ rest = numeral.whole ++ (Numeral.fractionText numeral.fraction ++
      (Numeral.exponentText numeral.exponent ++ rest)) := by
    rw [Numeral.text, List.append_assoc, List.append_assoc]
  rw [parts, number?, wholePart?_append wellFormed.whole wellFormed.zero fractionStop]
  show (fractionPart? _ >>= _) = _
  rw [fractionPart?_append wellFormed.fraction exponentStop.1 exponentStop.2]
  show (exponentPart? _ >>= _) = _
  rw [exponentPart?_append _ ends]
  unfold Numeral.value?
  simp only [Option.bind_eq_bind, Option.bind_some]
  -- What is made of the parts is the same on both sides, whether it is a number or not.
  rcases accumulate 0 numeral.whole with ⟨wholeValue, dropped⟩
  dsimp only
  rcases accumulate wholeValue numeral.fraction with ⟨significand, ignored⟩
  dsimp only
  split
  · rfl
  · rcases numeral.exponent with none | ⟨below, size⟩
    · dsimp only
      cases scale? _ _ with
      | none => rfl
      | some magnitude => rfl
    · dsimp only
      split
      · split
        · rfl
        · rfl
      · cases scale? _ _ with
        | none => rfl
        | some magnitude => rfl

/-- Digits are all taken in when their number fits into 64 bits. -/
theorem accumulate_eq {start : Nat} {digits : List Char}
    (small : start * 10 ^ digits.length + Text.decimalValue digits < UInt64.size) :
    accumulate start digits = (start * 10 ^ digits.length + Text.decimalValue digits, []) := by
  -- What has been taken in is never more than what there will be in the end.
  induction digits generalizing start with
  | nil =>
    rw [accumulate, List.length_nil, Nat.pow_zero, Nat.mul_one]
    rfl
  | cons c digits ih =>
    have total : start * 10 ^ (c :: digits).length + Text.decimalValue (c :: digits) =
        (10 * start + Text.digitValue c) * 10 ^ digits.length + Text.decimalValue digits := by
      rw [Text.decimalValue_cons, List.length_cons, Nat.pow_succ, Nat.add_mul,
        Nat.mul_comm 10 start, Nat.mul_assoc start, Nat.mul_comm 10, Nat.add_assoc]
    rw [total] at small ⊢
    have next : 10 * start + Text.digitValue c < UInt64.size := by
      have kept := Nat.le_mul_of_pos_right (10 * start + Text.digitValue c)
        (Nat.pow_pos (show 0 < 10 by decide) : 0 < 10 ^ digits.length)
      omega
    rw [accumulate, if_neg (Nat.not_le.mpr next), ih small]

namespace Numeral

/-- The magnitude that short parts are scaled to. -/
def scaled? (numeral : Numeral) : Option Binary64 :=
  let significand := Binary64.ofInt (Text.decimalValue (numeral.whole ++ numeral.fraction))
  match numeral.exponent with
  | none => scale? significand (-numeral.fraction.length)
  | some (below, size) =>
    scale? significand
      (if below then -numeral.fraction.length - size else -numeral.fraction.length + size)

/-- A numeral without point and exponent is read as an integer. -/
theorem value?_whole {whole : List Char} (short : Text.decimalValue whole < UInt64.size)
    (negative : Bool) :
    value? negative ⟨whole, [], none⟩ =
      some (ofSignificand negative (Text.decimalValue whole)) := by
  have taken : accumulate 0 whole = (Text.decimalValue whole, []) := by
    have all := @accumulate_eq 0 whole (by omega)
    rwa [Nat.zero_mul, Nat.zero_add] at all
  rw [value?, taken]
  rfl

/-- Short parts with a point or an exponent, of which none is out of range. -/
structure Floating (numeral : Numeral) : Prop extends WellFormed numeral where
  short : Text.decimalValue (numeral.whole ++ numeral.fraction) < UInt64.size
  marked : numeral.fraction ≠ [] ∨ numeral.exponent ≠ none
  moderate : ∀ below size, numeral.exponent = some (below, size) →
    (size : Int) ≤ Int32.maxValue.toInt
  scaled : ∃ magnitude, numeral.scaled? = some magnitude

/-- A numeral with a point or an exponent is read as a float. -/
theorem value?_floating {numeral : Numeral} (floating : numeral.Floating) {magnitude : Binary64}
    (scaled : numeral.scaled? = some magnitude) (negative : Bool) :
    numeral.value? negative = some (.float (signed negative magnitude)) := by
  have short := floating.short
  rw [Text.decimalValue_append] at short
  have whole : accumulate 0 numeral.whole = (Text.decimalValue numeral.whole, []) := by
    have kept := Nat.le_mul_of_pos_right (Text.decimalValue numeral.whole)
      (Nat.pow_pos (show 0 < 10 by decide) : 0 < 10 ^ numeral.fraction.length)
    have all := @accumulate_eq 0 numeral.whole (by omega)
    rwa [Nat.zero_mul, Nat.zero_add] at all
  have unmarked : ¬ (numeral.fraction.isEmpty && numeral.exponent.isNone) = true := by
    simpa [Classical.or_iff_not_imp_left] using floating.marked
  -- Nothing is dropped, so that only the fraction moves the point.
  have shift : ((([] : List Char).length : Int) -
      (numeral.fraction.length - (([] : List Char).length : Int))) = -numeral.fraction.length := by
    simp
  rw [value?, whole]
  dsimp only
  rw [accumulate_eq short]
  dsimp only
  rw [if_neg (by simpa using unmarked), shift]
  unfold scaled? at scaled
  rw [Text.decimalValue_append] at scaled
  rcases form : numeral.exponent with none | ⟨below, size⟩
  · rw [form] at scaled
    exact congrArg (Option.map _) scaled
  · rw [form] at scaled
    dsimp only
    rw [if_neg (Int.not_lt.mpr (floating.moderate below size form))]
    exact congrArg (Option.map _) scaled

end Numeral

/-- A negative exponent is always carried out. -/
theorem scale?_negative (value : Binary64) {exponent : Int} (below : exponent < 0) :
    ∃ magnitude, scale? value exponent = some magnitude := by
  -- Exponents that are too low are approached in steps that stay below zero.
  induction value, exponent using scale?.induct with
  | case1 value exponent small negative =>
    rw [scale?, if_pos small]
    dsimp only
    rw [if_pos negative]
    exact ⟨_, rfl⟩
  | case2 value exponent small positive => exact absurd below positive
  | case3 value exponent large zero =>
    rw [scale?, if_neg large, if_pos zero]
    exact ⟨_, rfl⟩
  | case4 value exponent large filled above => exact absurd below (Int.not_lt.mpr above)
  | case5 value exponent large filled negative ih =>
    rw [scale?, if_neg large, if_neg filled, if_neg negative]
    exact ih (by omega)

/-- A power of ten is multiplied when that does not overflow. -/
theorem scale?_product {value : Binary64} {exponent : Nat} (few : exponent ≤ 308)
    (finite : (value * Binary64.ofDecimal false 1 exponent).isFinite = true) :
    scale? value exponent = some (value * Binary64.ofDecimal false 1 exponent) := by
  have small : (exponent : Int).natAbs ≤ 308 := by omega
  have above : ¬ (exponent : Int) < 0 := by omega
  rw [scale?, if_pos small]
  dsimp only
  rw [if_neg above, Int.natAbs_natCast, Option.filter_some, if_pos finite]

end Placeholder.Value

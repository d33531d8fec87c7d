import Placeholder.Proofs.Checked.Basic
import Placeholder.Text.Digits

/-! Texts are stored as bytes, and can be cut only between two characters. -/

namespace Placeholder.Checked

/-- The bytes of a text. -/
def bytes (text : List Char) : List UInt8 :=
  text.flatMap String.utf8EncodeChar

/-- The number of bytes of a text. -/
def byteLength (text : List Char) : Nat :=
  (bytes text).length

/-- A text cut behind a number of bytes, which has to be the end of a character. -/
def cutAt : Nat → List Char → Checked (List Char × List Char)
  | 0, text => .ok ([], text)
  | _ + 1, [] => .error .cut
  | count + 1, c :: rest =>
    if count + 1 < c.utf8Size then .error .cut
    else (cutAt (count + 1 - c.utf8Size) rest).map fun (before, after) => (c :: before, after)

/-- The text behind a number of bytes. -/
def behind (count : Nat) (text : List Char) : Checked (List Char) := do
  return (← cutAt count text).2

/-- The text in front of a number of bytes. -/
def inFront (count : Nat) (text : List Char) : Checked (List Char) := do
  return (← cutAt count text).1

/-- Whether a byte is a decimal digit of ASCII. -/
def isDigit (byte : UInt8) : Bool :=
  48 ≤ byte && byte ≤ 57

/-- The bytes of a character are followed by those of the rest. -/
theorem byteLength_cons (c : Char) (rest : List Char) :
    byteLength (c :: rest) = c.utf8Size + byteLength rest := by
  simp [byteLength, bytes, String.length_utf8EncodeChar]

/-- The bytes of two texts are those of the first and then those of the second. -/
theorem byteLength_append (before after : List Char) :
    byteLength (before ++ after) = byteLength before + byteLength after := by
  rw [byteLength, bytes, List.flatMap_append, List.length_append]
  rfl

/-- A text has no bytes only when it is empty. -/
theorem byteLength_eq_zero_iff {text : List Char} : byteLength text = 0 ↔ text = [] := by
  cases text with
  | nil => exact ⟨fun _ => rfl, fun _ => rfl⟩
  | cons c rest =>
    have positive := c.utf8Size_pos
    rw [byteLength_cons]
    simp only [List.cons_ne_nil, iff_false]
    omega

/-- A text can be cut exactly where the bytes of one part of it end and the others begin. -/
theorem cutAt_eq_ok_iff {count : Nat} {text before after : List Char} :
    cutAt count text = .ok (before, after) ↔
      text = before ++ after ∧ byteLength before = count := by
  -- The induction follows the cut, which passes one whole character at a time.
  induction count, text using cutAt.induct generalizing before with
  | case1 text =>
    rw [cutAt, byteLength_eq_zero_iff, Except.ok.injEq, Prod.mk.injEq]
    constructor
    · rintro ⟨rfl, rfl⟩
      exact ⟨rfl, rfl⟩
    · rintro ⟨rfl, rfl⟩
      exact ⟨rfl, rfl⟩
  | case2 count =>
    rw [cutAt]
    constructor
    · intro cut
      cases cut
    · rintro ⟨whole, length⟩
      obtain ⟨rfl, rfl⟩ := List.append_eq_nil_iff.mp whole.symm
      cases length
  | case3 count c rest inside =>
    rw [cutAt, if_pos inside]
    constructor
    · intro cut
      cases cut
    · rintro ⟨whole, length⟩
      -- A part of that length would have to end inside the first character.
      cases before with
      | nil => cases length
      | cons d before =>
        cases whole
        rw [byteLength_cons] at length
        omega
  | case4 count c rest outside ih =>
    rw [cutAt, if_neg outside]
    constructor
    · intro cut
      cases cutRest : cutAt (count + 1 - c.utf8Size) rest with
      | error fault =>
        rw [cutRest] at cut
        cases cut
      | ok parts =>
        rw [cutRest] at cut
        cases cut
        obtain ⟨rfl, length⟩ := ih.mp cutRest
        refine ⟨rfl, ?_⟩
        rw [byteLength_cons, length]
        omega
    · rintro ⟨whole, length⟩
      cases before with
      | nil => cases length
      | cons d before =>
        cases whole
        rw [byteLength_cons] at length
        rw [ih.mpr ⟨rfl, by omega⟩]
        rfl

/-- A text can be cut behind any text that it starts with. -/
theorem cutAt_append (before after : List Char) :
    cutAt (byteLength before) (before ++ after) = .ok (before, after) :=
  cutAt_eq_ok_iff.mpr ⟨rfl, rfl⟩

/-- The text behind any text that it starts with is the rest. -/
theorem behind_append (before after : List Char) :
    behind (byteLength before) (before ++ after) = .ok after := by
  rw [behind, cutAt_append]
  rfl

/-- The text in front of a rest is what it starts with. -/
theorem inFront_append (before after : List Char) :
    inFront (byteLength before) (before ++ after) = .ok before := by
  rw [inFront, cutAt_append]
  rfl

/-- A byte that carries the mark of a longer character lies beyond ASCII. -/
theorem marked_byte_ge {part mark : Nat} (marked : 128 ≤ mark) (within : part + mark < 256) :
    128 ≤ UInt8.ofNat (part + mark) := by
  rw [UInt8.le_iff_toNat_le, UInt8.toNat_ofNat_of_lt' within]
  exact Nat.le_add_left_of_le marked

/-- A character of ASCII is one byte. -/
theorem utf8EncodeChar_ascii {c : Char} (ascii : c.toNat < 128) :
    String.utf8EncodeChar c = [UInt8.ofNat c.toNat] :=
  if_pos (Nat.le_of_lt_succ ascii)

/-- The only byte of a character of ASCII is its code point. -/
theorem toNat_ofNat_ascii {c : Char} (ascii : c.toNat < 128) :
    (UInt8.ofNat c.toNat).toNat = c.toNat :=
  UInt8.toNat_ofNat_of_lt' (Nat.lt_trans ascii (by decide))

/-- A character of ASCII puts one byte in front of a text. -/
theorem bytes_cons_ascii {c : Char} (ascii : c.toNat < 128) (rest : List Char) :
    bytes (c :: rest) = UInt8.ofNat c.toNat :: bytes rest := by
  rw [bytes, List.flatMap_cons, utf8EncodeChar_ascii ascii]
  rfl

/-- A text can be cut behind a first character of ASCII. -/
theorem behind_one {c : Char} (ascii : c.toNat < 128) (rest : List Char) :
    behind 1 (c :: rest) = .ok rest := by
  -- One byte is the length of a text of that character alone.
  have single : byteLength [c] = 1 := by
    rw [byteLength, bytes_cons_ascii ascii]
    rfl
  have cut := behind_append [c] rest
  rwa [single] at cut

/-- No byte of any other character is one of ASCII. -/
theorem utf8EncodeChar_beyond {c : Char} (beyond : 128 ≤ c.toNat) :
    ∀ byte ∈ String.utf8EncodeChar c, 128 ≤ byte := by
  -- Each of the longer forms marks its first byte and the bytes behind it.
  have same : c.val.toNat = c.toNat := rfl
  unfold String.utf8EncodeChar
  rw [same]
  dsimp only
  split
  · omega
  · split
    · simp only [List.forall_mem_cons]
      exact ⟨marked_byte_ge (by decide) (by omega), marked_byte_ge (by decide) (by omega),
        fun _ none => nomatch none⟩
    · split
      · simp only [List.forall_mem_cons]
        exact ⟨marked_byte_ge (by decide) (by omega), marked_byte_ge (by decide) (by omega),
          marked_byte_ge (by decide) (by omega), fun _ none => nomatch none⟩
      · simp only [List.forall_mem_cons]
        exact ⟨marked_byte_ge (by decide) (by omega), marked_byte_ge (by decide) (by omega),
          marked_byte_ge (by decide) (by omega), marked_byte_ge (by decide) (by omega),
          fun _ none => nomatch none⟩

/-- Every other character starts with a byte beyond ASCII. -/
theorem bytes_cons_beyond {c : Char} (beyond : 128 ≤ c.toNat) (rest : List Char) :
    ∃ lead others, bytes (c :: rest) = lead :: others ∧ 128 ≤ lead := by
  obtain ⟨lead, others, form⟩ := List.exists_cons_of_ne_nil (@String.utf8EncodeChar_ne_nil c)
  refine ⟨lead, others ++ bytes rest, ?_, ?_⟩
  · rw [bytes, List.flatMap_cons, form]
    rfl
  · exact utf8EncodeChar_beyond beyond lead (by simp [form])

/-- A byte of ASCII is in a text exactly when its character is. -/
theorem mem_bytes_iff {sign : Char} (ascii : sign.toNat < 128) (text : List Char) :
    UInt8.ofNat sign.toNat ∈ bytes text ↔ sign ∈ text := by
  induction text with
  | nil => simp [bytes]
  | cons c rest ih =>
    rw [bytes, List.flatMap_cons, List.mem_append, List.mem_cons]
    refine or_congr ?_ ih
    rcases Nat.lt_or_ge c.toNat 128 with small | large
    · rw [utf8EncodeChar_ascii small, List.mem_singleton, ← UInt8.toNat_inj,
        toNat_ofNat_ascii ascii, toNat_ofNat_ascii small, Char.toNat_inj]
    · -- The bytes lie beyond those of ASCII, and so does the character.
      constructor
      · intro member
        have beyond := UInt8.le_iff_toNat_le.mp (utf8EncodeChar_beyond large _ member)
        rw [toNat_ofNat_ascii ascii] at beyond
        exact absurd ascii (Nat.not_lt.mpr beyond)
      · rintro rfl
        omega

/-- The first byte of a text is one of ASCII exactly when its first character is. -/
theorem head?_bytes_iff {sign : Char} (ascii : sign.toNat < 128) (text : List Char) :
    (bytes text).head? = some (UInt8.ofNat sign.toNat) ↔ text.head? = some sign := by
  cases text with
  | nil => simp [bytes]
  | cons c rest =>
    rcases Nat.lt_or_ge c.toNat 128 with small | large
    · rw [bytes_cons_ascii small, List.head?_cons, List.head?_cons, Option.some.injEq,
        Option.some.injEq, ← UInt8.toNat_inj, toNat_ofNat_ascii small, toNat_ofNat_ascii ascii,
        Char.toNat_inj]
    · -- Neither the byte nor the character is one of ASCII.
      obtain ⟨lead, others, form, beyond⟩ := bytes_cons_beyond large rest
      rw [UInt8.le_iff_toNat_le] at beyond
      rw [form, List.head?_cons, List.head?_cons, Option.some.injEq, Option.some.injEq]
      constructor
      · rintro rfl
        rw [toNat_ofNat_ascii ascii] at beyond
        exact absurd ascii (Nat.not_lt.mpr beyond)
      · rintro rfl
        omega

/-- A byte is a digit by its place in ASCII. -/
theorem isDigit_iff {byte : UInt8} :
    isDigit byte = true ↔ 48 ≤ byte.toNat ∧ byte.toNat ≤ 57 := by
  simp only [isDigit, Bool.and_eq_true, decide_eq_true_eq, UInt8.le_iff_toNat_le]
  rfl

/-- A byte of ASCII is a digit exactly when its character is. -/
theorem isDigit_ofNat {c : Char} (ascii : c.toNat < 128) :
    isDigit (UInt8.ofNat c.toNat) = c.isDigit := by
  rw [Bool.eq_iff_iff, isDigit_iff, Char.isDigit_iff_toNat, toNat_ofNat_ascii ascii]
  rfl

/-- A digit is a character of ASCII. -/
theorem ascii_of_isDigit {c : Char} (digit : c.isDigit = true) : c.toNat < 128 :=
  Nat.lt_of_le_of_lt (Char.isDigit_iff_toNat.mp digit).2 (by decide)

/-- The first byte that is no digit ends the leading digits. -/
theorem findIdx_digits (text : List Char) :
    (bytes text).findIdx (!isDigit ·) = byteLength (text.takeWhile Char.isDigit) := by
  -- Each leading digit is one byte, and what follows them starts with another byte.
  induction text with
  | nil => rfl
  | cons c rest ih =>
    rcases Nat.lt_or_ge c.toNat 128 with small | large
    · rw [bytes_cons_ascii small, List.findIdx_cons, isDigit_ofNat small, List.takeWhile_cons]
      cases c.isDigit with
      | true =>
        rw [if_pos rfl, byteLength, bytes_cons_ascii small, List.length_cons]
        exact congrArg (· + 1) ih
      | false => rfl
    · -- A byte beyond ASCII is no digit, and neither is a character.
      obtain ⟨lead, others, form, beyond⟩ := bytes_cons_beyond large rest
      rw [UInt8.le_iff_toNat_le] at beyond
      have foreignByte : isDigit lead = false := by
        rw [Bool.eq_false_iff, ne_eq, isDigit_iff]
        exact fun within => absurd (Nat.le_trans beyond within.2) (by decide)
      have foreign : c.isDigit = false :=
        Bool.eq_false_iff.mpr fun digit => absurd (ascii_of_isDigit digit) (Nat.not_lt.mpr large)
      rw [form, List.findIdx_cons, foreignByte, List.takeWhile_cons, foreign]
      rfl

end Placeholder.Checked

import Placeholder.Options
import Placeholder.Proofs.Checked.Bytes
import Placeholder.Proofs.Integer

/-! Arguments are looked up and read by operations that are checked, and none of them fails. -/

namespace Placeholder.Checked

/-- The value of a byte that does not lie below the digits. -/
def digitValue (byte : UInt8) : Checked Nat :=
  if byte < 48 then .error .overflow else .ok (byte - 48).toNat

/-- The product with ten and the sum with a digit are held to the machine integers one by one. -/
def extended (value : Int64) (digit : Nat) : Int64 :=
  Integer.saturate ((Integer.saturate (value.toInt * 10)).toInt + digit)

/-- A number to which digits are put, held to the machine integers after each of them. -/
def extendedBy : List UInt8 → Int64 → Checked Int64
  | [], value => .ok value
  | byte :: rest, value => do extendedBy rest (extended value (← digitValue byte))

/-- Whether a text starts with a minus sign, and the text without the sign that it starts with. -/
def unsigned (text : List Char) : Checked (Bool × List Char) := do
  let first := (bytes text).head?
  if first = some (UInt8.ofNat '-'.toNat) then return (true, ← behind 1 text)
  else if first = some (UInt8.ofNat '+'.toNat) then return (false, ← behind 1 text)
  else return (false, text)

/-- The number that the leading digits of a text write, if it has any. -/
def magnitude? (text : List Char) : Checked (Option Int64) := do
  let count := (bytes text).findIdx (!isDigit ·)
  if count = 0 then return none
  return some (← extendedBy (bytes (← inFront count text)) 0)

/-- The leading digits of a text, read as a machine integer with a given sign. -/
def signedInteger? (negative : Bool) (text : List Char) : Checked (Option Int64) := do
  match ← magnitude? text with
  | some magnitude => if negative then some <$> negate magnitude else return some magnitude
  | none => return none

/-- The digits after leading blanks and one optional sign, read as a machine integer. -/
def leadingInteger? (text : List Char) : Checked (Option Int64) := do
  let (negative, rest) ← unsigned (Text.trimStart text)
  signedInteger? negative rest

/-- The integer that an argument is taken for. -/
def integerOf? : Arg → Checked (Option Int64)
  | .number value => return some value
  | .text content => leadingInteger? content.toList

/-- The indices of the arguments that are no named options. -/
def positions (args : List Arg) : List Nat :=
  (args.zipIdx.filter (·.1.option?.isNone)).map Prod.snd

/-- An option by name, or else by the index that is noted for its position. -/
def find? (options : Options) (name : String) (position : Nat) : Checked (Option Arg) :=
  match options.named? name with
  | some arg => .ok (some arg)
  | none =>
    match (positions options.args)[position]? with
    | some index => some <$> item options.args index
    | none => .ok none

/-- An option taken for an integer. -/
def integer? (options : Options) (name : String) (position : Nat) : Checked (Option Int64) := do
  match ← find? options name position with
  | some arg => integerOf? arg
  | none => return none

/-- An option as text. -/
def text? (options : Options) (name : String) (position : Nat) : Checked (Option String) := do
  return (← find? options name position).map Arg.toText

/-- Saturation in the middle is lost in the saturation at the end. -/
theorem extended_saturate {value : Int} (nonneg : 0 ≤ value) (digit : Nat) :
    extended (Integer.saturate value) digit = Integer.saturate (10 * value + digit) := by
  -- Beyond the largest integer both sides stay there, and below it nothing is lost.
  apply Int64.toInt_inj.mp
  unfold extended
  simp only [Integer.toInt_saturate, Int64.toInt_minValue, Int64.toInt_maxValue]
  omega

/-- The value of a digit is found without going below zero. -/
theorem digitValue_ofNat {c : Char} (digit : c.isDigit = true) :
    digitValue (UInt8.ofNat c.toNat) = .ok (Text.digitValue c) := by
  obtain ⟨low, high⟩ := Char.isDigit_iff_toNat.mp digit
  have byte := toNat_ofNat_ascii (ascii_of_isDigit digit)
  have reached : 48 ≤ UInt8.ofNat c.toNat := by
    rw [UInt8.le_iff_toNat_le, byte]
    exact low
  rw [digitValue, if_neg (UInt8.not_lt.mpr reached), UInt8.toNat_sub_of_le _ _ reached, byte]
  rfl

/-- Digits that are read one after another have the value that they have together. -/
theorem extendedBy_bytes {digits : List Char} (all : ∀ c ∈ digits, c.isDigit = true)
    (value : Nat) :
    extendedBy (bytes digits) (Integer.saturate value) = .ok (Integer.saturate
      (digits.foldl (fun value c => 10 * value + Text.digitValue c) value : Nat)) := by
  -- The induction carries the value of the digits that have been read.
  induction digits generalizing value with
  | nil => rfl
  | cons c rest ih =>
    obtain ⟨digit, others⟩ := List.forall_mem_cons.mp all
    rw [bytes_cons_ascii (ascii_of_isDigit digit), extendedBy, digitValue_ofNat digit, ok_bind,
      extended_saturate (Int.natCast_nonneg value), List.foldl_cons, ← ih others]
    rfl

/-- The first byte is a sign exactly when the first character is. -/
theorem unsigned_eq (text : List Char) :
    unsigned text =
      if text.head? = some '-' then do return (true, ← behind 1 text)
      else if text.head? = some '+' then do return (false, ← behind 1 text)
      else return (false, text) := by
  unfold unsigned
  simp only [head?_bytes_iff (show '-'.toNat < 128 by decide),
    head?_bytes_iff (show '+'.toNat < 128 by decide)]

/-- A minus sign is a byte of its own, so the text can be cut behind it. -/
theorem unsigned_minus (rest : List Char) : unsigned ('-' :: rest) = .ok (true, rest) := by
  rw [unsigned_eq, List.head?_cons, if_pos rfl, behind_one (by decide)]
  rfl

/-- A plus sign is a byte of its own too. -/
theorem unsigned_plus (rest : List Char) : unsigned ('+' :: rest) = .ok (false, rest) := by
  rw [unsigned_eq, List.head?_cons, if_neg (by decide), if_pos rfl, behind_one (by decide)]
  rfl

/-- Any other text is not cut. -/
theorem unsigned_other {text : List Char} (noMinus : ∀ rest, text ≠ '-' :: rest)
    (noPlus : ∀ rest, text ≠ '+' :: rest) : unsigned text = .ok (false, text) := by
  rw [unsigned_eq, if_neg, if_neg]
  · rfl
  · intro plus
    obtain ⟨rest, whole⟩ := List.head?_eq_some_iff.mp plus
    exact noPlus rest whole
  · intro minus
    obtain ⟨rest, whole⟩ := List.head?_eq_some_iff.mp minus
    exact noMinus rest whole

/-- The leading digits are cut off where they end, and none of them lies below zero. -/
theorem magnitude?_eq (text : List Char) :
    magnitude? text = .ok (match text.takeWhile Char.isDigit with
      | [] => none
      | digits => some (Integer.saturate (Text.decimalValue digits))) := by
  -- The text is cut behind its leading digits, which are in front of the rest of it.
  have cut := inFront_append (text.takeWhile Char.isDigit) (text.dropWhile Char.isDigit)
  rw [List.takeWhile_append_dropWhile] at cut
  unfold magnitude?
  rw [findIdx_digits]
  dsimp only
  have value := extendedBy_bytes
    (List.all_eq_true.mp (List.all_takeWhile (p := Char.isDigit) (l := text))) 0
  split
  · rename_i empty
    rw [byteLength_eq_zero_iff] at empty
    rw [empty]
    rfl
  · rename_i filled
    rw [byteLength_eq_zero_iff] at filled
    rw [cut]
    show (do return some (← extendedBy _ (Integer.saturate (0 : Nat)))) = _
    rw [value]
    split
    · contradiction
    · rfl

/-- No magnitude is negative, so each of them has an opposite. -/
theorem signedInteger?_eq (negative : Bool) (text : List Char) :
    signedInteger? negative text = .ok (match text.takeWhile Char.isDigit with
      | [] => none
      | digits =>
        let magnitude := Integer.saturate (Text.decimalValue digits)
        some (if negative then -magnitude else magnitude)) := by
  have nonneg := Integer.toInt_saturate_nonneg
    (Int.natCast_nonneg (Text.decimalValue (text.takeWhile Char.isDigit)))
  have opposite := negate_of_nonneg (Int64.le_iff_toInt_le.mpr nonneg)
  unfold signedInteger?
  rw [magnitude?_eq]
  split
  · rfl
  · cases negative with
    | true =>
      show some <$> negate _ = _
      rw [opposite]
      rfl
    | false => rfl

/-- Reading an integer meets no fault. -/
theorem leadingInteger?_eq (text : List Char) :
    leadingInteger? text = .ok (Arg.leadingInteger? text) := by
  -- The three shapes of the text decide its sign, and the digits are read alike behind all of them.
  unfold leadingInteger? Arg.leadingInteger?
  split
  rename_i negative rest found
  split at found
  · cases found
    rename_i signed
    rw [signed, unsigned_minus]
    exact signedInteger?_eq true rest
  · cases found
    rename_i signed
    rw [signed, unsigned_plus]
    exact signedInteger?_eq false rest
  · cases found
    rename_i noMinus noPlus
    rw [unsigned_other noMinus noPlus]
    exact signedInteger?_eq false _

/-- Taking an argument for an integer meets no fault. -/
theorem integerOf?_eq (arg : Arg) : integerOf? arg = .ok arg.integer? := by
  cases arg with
  | number value => rfl
  | text content => exact leadingInteger?_eq content.toList

/-- The unnamed arguments can be picked out together with their indices. -/
theorem positional_eq (options : Options) : options.positional =
    (options.args.zipIdx.filter (·.1.option?.isNone)).map Prod.fst := by
  calc options.positional
    _ = (options.args.zipIdx.map Prod.fst).filter (·.option?.isNone) := by
      rw [List.zipIdx_map_fst, Options.positional]
    _ = _ := List.filter_map

/-- Looking an option up meets no fault, since every noted index is one of an argument. -/
theorem find?_eq (options : Options) (name : String) (position : Nat) :
    find? options name position = .ok (options.find? name position) := by
  unfold find? Options.find?
  cases options.named? name with
  | some arg => rfl
  | none =>
    rw [positional_eq, positions, List.getElem?_map, List.getElem?_map]
    cases found : (options.args.zipIdx.filter (·.1.option?.isNone))[position]? with
    | none => rfl
    | some entry =>
      have member := (List.mem_filter.mp (List.mem_of_getElem? found)).1
      have inside := List.mem_zipIdx_iff_getElem?.mp member
      show some <$> item options.args entry.2 = .ok (some entry.1)
      rw [item_eq_ok_iff.mpr inside]
      rfl

/-- An option is taken for an integer without a fault. -/
theorem integer?_eq (options : Options) (name : String) (position : Nat) :
    integer? options name position = .ok (options.integer? name position) := by
  unfold integer? Options.integer?
  rw [find?_eq]
  cases options.find? name position with
  | none => rfl
  | some arg => exact integerOf?_eq arg

/-- An option is taken as text without a fault. -/
theorem text?_eq (options : Options) (name : String) (position : Nat) :
    text? options name position = .ok (options.text? name position) := by
  rw [text?, find?_eq]
  rfl

end Placeholder.Checked

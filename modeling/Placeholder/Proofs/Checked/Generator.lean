import Placeholder.Generator.Builtin
import Placeholder.Proofs.Checked.Argument
import Placeholder.Proofs.Generator.Bounds

/-! The generators draw by operations that are checked, and none of them fails. -/

namespace Placeholder.Checked

open Generator (safeLimit alphabet)

/-- An integer between two bounds, which default to the safe integers. -/
def integer (min max : Option Int64) : CheckedDraw Int64 := do
  let min := min.getD (-safeLimit)
  let max := max.getD safeLimit
  let low := Binary64.ofInt64 min
  let position := (← Draw.fraction.checked) * (Binary64.ofInt64 max - low) + low
  -- A number is turned into an integer by saturation, which has a result for every number.
  clamp position.roundHalfUp.toInt64 (if max < min then max else min)
    (if max < min then min else max)

/-- A number rounded to decimal places if any are given. -/
def rounded (places : Option UInt32) (value : Binary64) : Checked Binary64 :=
  match places with
  | some places => do
    let scale := (Binary64.ofInt 10).power (← signed32 places).toInt
    return (value * scale).roundHalfAway / scale
  | none => return value

/-- A float between two bounds, rounded to decimal places if any are given. -/
def float (min max : Binary64) (places : Option UInt32) : CheckedDraw Binary64 := do
  let position := (← Draw.fraction.checked) * (max - min) + min
  clampNumber (← rounded places position) (min.min max) (min.max max)

/-- A bound of floats, where only texts of finite numbers count. -/
def floatBound? (options : Options) (name : String) (position : Nat) :
    Checked (Option Binary64) := do
  return (← text? options name position).bind fun text =>
    Binary64.ofNumeral? (Text.trim text.toList)

/-- Decimal places lie between none and ten, two being the default. -/
def decimalPlaces (options : Options) : Checked UInt32 := do
  unsigned32 (← clamp ((← integer? options "decimals" 2).getD 2) 0 10)

/-- A character of the alphabet. -/
def character : CheckedDraw Char := do
  let position ← integer (some 0) (some (Int64.ofNat alphabet.length - 1))
  item alphabet (← size position)

/-- A length within the limits is taken as it is, and otherwise one is drawn between the bounds. -/
def stringLength (min max length : Option Int64) : CheckedDraw Nat :=
  match length.filter fun length =>
    Generator.leastLength ≤ length && length ≤ Generator.greatestLength with
  | some length => size length
  | none => do
    size (← integer (some (Generator.lowerLength min)) (some (Generator.upperLength max)))

/-- A string of a given length. -/
def string (length : Nat) : CheckedDraw String := do
  return String.ofList (← (List.range length).mapM fun _ => character)

/-- One of some items as a value, or null without a draw when there are none. -/
def oneOf {α : Type} (items : List α) (shown : α → Value) : CheckedDraw Value := do
  if items.isEmpty then return .null
  return shown (← item items (← index items.length))

/-- A byte at an index inside of a list is changed. -/
def changeByte (bytes : List UInt8) (index : Nat) (change : UInt8 → UInt8) :
    Checked (List UInt8) := do
  return bytes.set index (change (← item bytes index))

/-- A random identifier. -/
def identifier : CheckedDraw String := do
  let bytes ← Draw.sixteenBytes.checked
  let bytes ← changeByte bytes 6 fun byte => (byte &&& 0x0F) ||| 0x40
  let bytes ← changeByte bytes 8 fun byte => (byte &&& 0x3F) ||| 0x80
  return String.ofList (Generator.groupsText Generator.groupSizes bytes)

/-- Integers meet no fault, since the lower one of two bounds is taken for the lower bound. -/
theorem integer_eq (min max : Option Int64) :
    integer min max = (Generator.integer min max).checked := by
  -- Both draw one fraction and come to the same position, which is then clamped.
  unfold integer Generator.integer
  rw [Draw.checked_bind]
  refine bind_congr fun fraction => ?_
  dsimp only
  rw [clamp_of_le]
  · rfl
  · split
    · exact Int64.le_of_lt ‹_›
    · exact Int64.not_lt.mp ‹_›

/-- A float is rounded without a fault when the decimal places are few. -/
theorem exists_rounded {places : Option UInt32} (few : ∀ count ∈ places, count.toNat ≤ 10)
    (fraction min max : Binary64) :
    ∃ value, rounded places (fraction * (max - min) + min) = .ok value ∧
      Generator.floatAt fraction min max places = value.clamp (min.min max) (min.max max) := by
  -- Without decimal places nothing is cast, and with few of them the cast has room.
  cases places with
  | none => exact ⟨_, rfl, rfl⟩
  | some count =>
    have fits : (count.toNat : Int) ≤ Int32.maxValue.toInt :=
      Int.le_trans (Int.ofNat_le.mpr (few count rfl)) (by decide)
    refine ⟨Generator.roundedTo count (fraction * (max - min) + min), ?_, rfl⟩
    rw [rounded, signed32_of_le fits, ok_bind]
    rfl

/-- Floats meet no fault between bounds of which the first is a number. -/
theorem float_eq {min : Binary64} (number : min.isNaN = false) (max : Binary64)
    {places : Option UInt32} (few : ∀ count ∈ places, count.toNat ≤ 10) :
    float min max places = (Generator.float min max places).checked := by
  unfold float Generator.float
  rw [Draw.checked_bind]
  refine bind_congr fun fraction => ?_
  obtain ⟨value, found, same⟩ := exists_rounded few fraction min max
  dsimp only
  rw [found, Draw.liftM_ok, pure_bind, same,
    clampNumber_of_atLeast (Binary64.max_atLeast_min number max)]
  rfl

/-- Bounds of floats are read without a fault. -/
theorem floatBound?_eq (options : Options) (name : String) (position : Nat) :
    floatBound? options name position = .ok (Generator.floatBound? options name position) := by
  rw [floatBound?, text?_eq]
  rfl

/-- An integer that is held between zero and ten is the nearest size up to ten. -/
theorem toNatClampNeg_held (places : Int64) :
    (if places < 0 then 0 else if 10 < places then 10 else places : Int64).toNatClampNeg =
      Nat.min places.toInt.toNat 10 := by
  -- Below zero both sides are zero, beyond ten both are ten, and between them nothing is moved.
  show Int.toNat (Int64.toInt _) = min _ _
  have zero : (0 : Int64).toInt = 0 := rfl
  have ten : (10 : Int64).toInt = 10 := rfl
  split
  · rename_i below
    rw [Int64.lt_iff_toInt_lt] at below
    omega
  · rename_i least
    rw [Int64.lt_iff_toInt_lt] at least
    split
    · rename_i above
      rw [Int64.lt_iff_toInt_lt] at above
      omega
    · rename_i within
      rw [Int64.lt_iff_toInt_lt] at within
      omega

/-- Decimal places are counted without a fault. -/
theorem decimalPlaces_eq (options : Options) :
    decimalPlaces options = .ok (Generator.decimalPlaces options) := by
  unfold decimalPlaces Generator.decimalPlaces
  rw [integer?_eq, ok_bind]
  generalize (options.integer? "decimals" 2).getD 2 = places
  rw [clamp_of_le (by decide), ok_bind]
  have size := toNatClampNeg_held places
  have few := Nat.min_le_right places.toInt.toNat 10
  rw [unsigned32_of_lt, size]
  · show 0 ≤ _
    split
    · exact Int64.le_refl 0
    · rename_i least
      split
      · decide
      · exact Int64.not_lt.mp least
  · rw [size]
    exact Nat.lt_of_le_of_lt few (by decide)

/-- Characters meet no fault, since the highest position is the last one of the alphabet. -/
theorem character_eq : character = Generator.character.checked := by
  -- The bounds of the draw are the first and the last position.
  have last : Int64.ofNat alphabet.length - 1 = 61 := by decide
  have between : (Generator.integer (some 0) (some 61)).Always fun value =>
      0 ≤ value ∧ value ≤ 61 := Generator.integer_always (by decide) (by decide)
  unfold character Generator.character
  rw [last, integer_eq, Draw.checked_bind]
  refine Draw.checked_bind_congr between ?_
  intro position within
  obtain ⟨low, high⟩ := within
  have inside : position.toNatClampNeg < alphabet.length := by
    rw [Int64.le_iff_toInt_le] at high
    show position.toInt.toNat < 62
    have highest : (61 : Int64).toInt = 61 := rfl
    omega
  rw [size_of_nonneg low, Draw.liftM_ok, pure_bind, item_eq_getD inside 'A']
  rfl

/-- A length that is not less than the least one is a size. -/
theorem size_of_least {length : Int64} (least : Generator.leastLength ≤ length) :
    size length = .ok length.toNatClampNeg :=
  size_of_nonneg (Int64.le_trans (by decide) least)

/-- Lengths meet no fault, since all bounds of lengths are positive. -/
theorem stringLength_eq (min max length : Option Int64) :
    stringLength min max length = (Generator.stringLength min max length).checked := by
  -- A length is either given within the limits or drawn between bounds that lie within them.
  unfold stringLength Generator.stringLength
  cases kept : length.filter fun length =>
      Generator.leastLength ≤ length && length ≤ Generator.greatestLength with
  | some length =>
    have within := (Option.filter_eq_some_iff.mp kept).2
    simp only [Bool.and_eq_true, decide_eq_true_eq] at within
    dsimp only
    rw [size_of_least within.1]
    rfl
  | none =>
    dsimp only
    rw [integer_eq, Draw.checked_bind]
    refine Draw.checked_bind_congr (Generator.integer_always
      (Generator.lowerLength_between min) (Generator.upperLength_between max)) ?_
    intro drawn within
    rw [size_of_least within.1]
    rfl

/-- Strings meet no fault, since none of their characters does. -/
theorem string_eq (length : Nat) : string length = (Generator.string length).checked := by
  unfold string Generator.string Draw.times
  rw [character_eq, Draw.checked_bind, Draw.checked_mapM]
  rfl

/-- Choices meet no fault, since an index lies below the number of items. -/
theorem oneOf_eq {α : Type} (items : List α) (shown : α → Value) :
    oneOf items shown = (Generator.oneOf (items.map shown)).checked := by
  unfold oneOf Generator.oneOf
  cases items with
  | nil => rfl
  | cons first rest =>
    have positive : 0 < (first :: rest).length := Nat.succ_pos _
    show (index _ >>= _ : CheckedDraw Value) = Draw.checked (Draw.index _ >>= _)
    rw [index_of_pos positive, List.length_map, Draw.checked_bind]
    refine Draw.checked_bind_congr (Draw.index_lt positive) ?_
    intro position inside
    rw [item_eq_getD inside first, Draw.liftM_ok, pure_bind, List.getD_eq_getElem?_getD,
      List.getD_eq_getElem?_getD, List.getElem?_map, List.getElem?_eq_getElem inside]
    rfl

/-- A byte inside of a list is changed without a fault. -/
theorem changeByte_eq {bytes : List UInt8} {index : Nat} (inside : index < bytes.length)
    (change : UInt8 → UInt8) :
    changeByte bytes index change = .ok (bytes.modify index change) := by
  rw [changeByte, item_eq_getD inside default, ok_bind, List.modify_eq_set,
    List.getD_eq_getElem?_getD]
  rfl

/-- Identifiers meet no fault, since they have sixteen bytes. -/
theorem identifier_eq : identifier = Generator.identifier.checked := by
  unfold identifier Generator.identifier
  rw [Draw.checked_bind]
  refine Draw.checked_bind_congr Draw.sixteenBytes_length ?_
  intro bytes length
  rw [changeByte_eq (by omega), Draw.liftM_ok, pure_bind,
    changeByte_eq (by rw [List.length_modify]; omega), Draw.liftM_ok, pure_bind]
  rfl

end Placeholder.Checked

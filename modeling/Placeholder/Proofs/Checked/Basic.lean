import Placeholder.Proofs.Binary64.Order
import Placeholder.Proofs.Random.Results

/-! Operations that do not always have a result, with the conditions under which they have one. -/

namespace Placeholder

/-- Why an operation has no result. -/
inductive Fault where
  /-- An index lies beyond the end of a list. -/
  | index
  /-- A text is cut inside a character or beyond its end. -/
  | cut
  /-- The bounds of a clamp are the wrong way round, or one is not-a-number. -/
  | bounds
  /-- There is nothing to choose from. -/
  | emptyRange
  /-- A probability lies outside zero and one. -/
  | probability
  /-- A machine integer has no room for a result. -/
  | overflow
deriving DecidableEq, Repr

/-- A result, unless some operation on the way to it has none. -/
abbrev Checked (α : Type) :=
  Except Fault α

/-- A computation that draws words, unless some operation of it has no result. -/
abbrev CheckedDraw (α : Type) :=
  StateT Source (Except Fault) α

namespace Draw

variable {α β : Type}

/-- A draw of which every operation has a result. -/
def checked (draw : Draw α) : CheckedDraw α :=
  fun source => .ok (draw.run source)

/-- A returned value is drawn without a fault. -/
theorem checked_pure (value : α) : (pure value : Draw α).checked = pure value :=
  rfl

/-- Draws one after another are free of faults when each of them is. -/
theorem checked_bind (draw : Draw α) (next : α → Draw β) :
    (draw >>= next).checked = draw.checked >>= fun value => (next value).checked :=
  rfl

/-- What follows a draw may rely on everything that holds of its results. -/
theorem checked_bind_congr {draw : Draw α} {holds : α → Prop} (always : draw.Always holds)
    {first second : α → CheckedDraw β} (same : ∀ value, holds value → first value = second value) :
    draw.checked >>= first = draw.checked >>= second := by
  -- Only the result for the source at hand is handed on.
  funext source
  exact congrFun (same _ (always source)) _

/-- A result that is there already is drawn without words. -/
theorem liftM_ok (value : α) :
    (liftM (Except.ok value : Checked α) : CheckedDraw α) = pure value :=
  rfl

/-- A draw is repeated without a fault when it is free of them itself. -/
theorem checked_mapM {γ : Type} (items : List γ) (draw : Draw α) :
    (items.mapM fun _ => draw : Draw (List α)).checked =
      (items.mapM fun _ => draw.checked : CheckedDraw (List α)) := by
  -- Each repetition is followed by the others, so the law of the bind applies to every one.
  induction items with
  | nil => rfl
  | cons item items ih => simp only [List.mapM_cons, checked_bind, ih, checked_pure]

end Draw

namespace Checked

variable {α : Type}

/-- The item of a list at an index inside of it. -/
def item (items : List α) (index : Nat) : Checked α :=
  match items[index]? with
  | some found => .ok found
  | none => .error .index

/-- An integer held between bounds that are in order. -/
def clamp (value lower upper : Int64) : Checked Int64 :=
  if upper < lower then .error .bounds
  else .ok (if value < lower then lower else if upper < value then upper else value)

/-- A number held between bounds that are in order. -/
def clampNumber (value lower upper : Binary64) : Checked Binary64 :=
  if upper.atLeast lower then .ok (value.clamp lower upper) else .error .bounds

/-- The opposite of an integer other than the least one. -/
def negate (value : Int64) : Checked Int64 :=
  if value = Int64.minValue then .error .overflow else .ok (-value)

/-- An integer as a size, which is not negative. -/
def size (value : Int64) : Checked Nat :=
  if value < 0 then .error .overflow else .ok value.toNatClampNeg

/-- An integer as an unsigned integer of 32 bits. -/
def unsigned32 (value : Int64) : Checked UInt32 :=
  if value < 0 ∨ UInt32.size ≤ value.toNatClampNeg then .error .overflow
  else .ok (UInt32.ofNat value.toNatClampNeg)

/-- An unsigned integer of 32 bits as a signed one. -/
def signed32 (value : UInt32) : Checked Int32 :=
  if Int32.maxValue.toInt < value.toNat then .error .overflow else .ok value.toInt32

/-- An index below a count that is not zero. -/
def index (count : Nat) : CheckedDraw Nat :=
  if count = 0 then throw .emptyRange else (Draw.index count).checked

/-- A chance of a probability from zero to one. -/
def chance (probability : Binary64) : CheckedDraw Bool :=
  if probability.atLeast .zero && Binary64.one.atLeast probability then
    (Draw.chance probability).checked
  else throw .probability

/-- A result is handed on to what follows. -/
theorem ok_bind {β : Type} (value : α) (next : α → Checked β) :
    (Except.ok value : Checked α) >>= next = next value :=
  rfl

/-- An index has an item exactly when it lies inside the list. -/
theorem item_eq_ok_iff {items : List α} {index : Nat} {found : α} :
    item items index = .ok found ↔ items[index]? = some found := by
  unfold item
  cases items[index]? with
  | none => exact ⟨nofun, nofun⟩
  | some other => exact ⟨fun same => congrArg some (Except.ok.inj same),
      fun same => congrArg Except.ok (Option.some.inj same)⟩

/-- Inside of a list no fallback is needed. -/
theorem item_eq_getD {items : List α} {index : Nat} (inside : index < items.length)
    (fallback : α) : item items index = .ok (items.getD index fallback) := by
  rw [item_eq_ok_iff, List.getD_eq_getElem?_getD, List.getElem?_eq_getElem inside]
  rfl

/-- Bounds in order hold an integer between them. -/
theorem clamp_of_le {lower upper : Int64} (ordered : lower ≤ upper) (value : Int64) :
    clamp value lower upper =
      .ok (if value < lower then lower else if upper < value then upper else value) :=
  if_neg (Int64.not_lt.mpr ordered)

/-- Bounds in order hold a number between them. -/
theorem clampNumber_of_atLeast {lower upper : Binary64} (ordered : upper.atLeast lower = true)
    (value : Binary64) : clampNumber value lower upper = .ok (value.clamp lower upper) :=
  if_pos ordered

/-- Every integer from zero on has an opposite. -/
theorem negate_of_nonneg {value : Int64} (nonneg : 0 ≤ value) : negate value = .ok (-value) := by
  -- The only integer without an opposite lies below zero.
  apply if_neg
  rintro rfl
  exact absurd nonneg (by decide)

/-- Every integer from zero on is a size. -/
theorem size_of_nonneg {value : Int64} (nonneg : 0 ≤ value) :
    size value = .ok value.toNatClampNeg :=
  if_neg (Int64.not_lt.mpr nonneg)

/-- Every integer from zero on that 32 bits suffice for is an unsigned one. -/
theorem unsigned32_of_lt {value : Int64} (nonneg : 0 ≤ value)
    (fits : value.toNatClampNeg < UInt32.size) :
    unsigned32 value = .ok (UInt32.ofNat value.toNatClampNeg) :=
  if_neg (not_or.mpr ⟨Int64.not_lt.mpr nonneg, Nat.not_le.mpr fits⟩)

/-- Every unsigned integer that 31 bits suffice for is a signed one. -/
theorem signed32_of_le {value : UInt32} (fits : (value.toNat : Int) ≤ Int32.maxValue.toInt) :
    signed32 value = .ok value.toInt32 :=
  if_neg (Int.not_lt.mpr fits)

/-- There is an index when there is something to choose from. -/
theorem index_of_pos {count : Nat} (positive : 0 < count) :
    index count = (Draw.index count).checked :=
  if_neg (Nat.ne_of_gt positive)

/-- There is a chance of every probability from zero to one. -/
theorem chance_of_between {probability : Binary64} (low : probability.atLeast .zero = true)
    (high : Binary64.one.atLeast probability = true) :
    chance probability = (Draw.chance probability).checked := by
  unfold chance
  rw [low, high]
  rfl

end Checked

end Placeholder

import Placeholder.Value

/-! Arrays and objects hold values, which may hold values themselves, down to plain ones. -/

namespace Placeholder.Value

/-- What passes from items to arrays and from fields to objects holds of every value. -/
@[elab_as_elim, induction_eliminator]
theorem induct {motive : Value → Prop} (null : motive .null)
    (bool : ∀ value, motive (.bool value)) (int : ∀ value, motive (.int value))
    (float : ∀ value, motive (.float value)) (string : ∀ value, motive (.string value))
    (array : ∀ items, (∀ item ∈ items, motive item) → motive (.array items))
    (object : ∀ fields, (∀ field ∈ fields, motive field.2) → motive (.object fields))
    (value : Value) : motive value := by
  -- The recursor has a motive of its own for items, for fields and for a single field.
  apply @Value.rec motive (fun items => ∀ item ∈ items, motive item)
    (fun fields => ∀ field ∈ fields, motive field.2) (fun field => motive field.2)
    null bool int float string array object
  · exact fun _ none => absurd none List.not_mem_nil
  · exact fun item items first others => List.forall_mem_cons.mpr ⟨first, others⟩
  · exact fun _ none => absurd none List.not_mem_nil
  · exact fun field fields first others => List.forall_mem_cons.mpr ⟨first, others⟩
  · exact fun key value held => held

mutual

/-- A value and all values in it. -/
def parts : Value → List Value
  | .array items => .array items :: itemParts items
  | .object fields => .object fields :: fieldParts fields
  | value => [value]

/-- The values in items. -/
def itemParts : List Value → List Value
  | [] => []
  | item :: rest => parts item ++ itemParts rest

/-- The values in fields. -/
def fieldParts : List (String × Value) → List Value
  | [] => []
  | (_, value) :: rest => parts value ++ fieldParts rest

end

mutual

/-- How deep arrays and objects are nested in a value. -/
def depth : Value → Nat
  | .array items => itemDepth items + 1
  | .object fields => fieldDepth fields + 1
  | _ => 0

/-- How deep arrays and objects are nested in items. -/
def itemDepth : List Value → Nat
  | [] => 0
  | item :: rest => max (depth item) (itemDepth rest)

/-- How deep arrays and objects are nested in fields. -/
def fieldDepth : List (String × Value) → Nat
  | [] => 0
  | (_, value) :: rest => max (depth value) (fieldDepth rest)

end

mutual

/-- A value with other floats in it, and the same elsewhere. -/
def mapFloats (change : Binary64 → Binary64) : Value → Value
  | .float value => .float (change value)
  | .array items => .array (mapItems change items)
  | .object fields => .object (mapFields change fields)
  | value => value

/-- Items with other floats in them. -/
def mapItems (change : Binary64 → Binary64) : List Value → List Value
  | [] => []
  | item :: rest => mapFloats change item :: mapItems change rest

/-- Fields with other floats in their values, and the same keys. -/
def mapFields (change : Binary64 → Binary64) : List (String × Value) → List (String × Value)
  | [] => []
  | (key, value) :: rest => (key, mapFloats change value) :: mapFields change rest

end

/-- Every float in a value is of a kind. -/
def EachFloat (holds : Binary64 → Prop) (value : Value) : Prop :=
  ∀ number, .float number ∈ value.parts → holds number

/-- Every object in a value lists its fields in strictly increasing order of the keys. -/
def Ordered (value : Value) : Prop :=
  ∀ fields, .object fields ∈ value.parts →
    fields.Pairwise fun field other => field.1 < other.1

/-- The parts of items are those of each. -/
theorem itemParts_eq (items : List Value) : itemParts items = items.flatMap parts := by
  induction items with
  | nil => rfl
  | cons item items ih => rw [itemParts, List.flatMap_cons, ih]

/-- The parts of fields are those of each value. -/
theorem fieldParts_eq (fields : List (String × Value)) :
    fieldParts fields = fields.flatMap fun field => parts field.2 := by
  induction fields with
  | nil => rfl
  | cons field fields ih => rw [fieldParts, List.flatMap_cons, ih]

/-- Items change one by one. -/
theorem mapItems_eq (change : Binary64 → Binary64) (items : List Value) :
    mapItems change items = items.map (mapFloats change) := by
  induction items with
  | nil => rfl
  | cons item items ih => rw [mapItems, List.map_cons, ih]

/-- Fields change one by one. -/
theorem mapFields_eq (change : Binary64 → Binary64) (fields : List (String × Value)) :
    mapFields change fields = fields.map fun field => (field.1, mapFloats change field.2) := by
  induction fields with
  | nil => rfl
  | cons field fields ih => rw [mapFields, List.map_cons, ih]

/-- Items are as deep as the deepest of them. -/
theorem itemDepth_le_iff {items : List Value} {limit : Nat} :
    itemDepth items ≤ limit ↔ ∀ item ∈ items, item.depth ≤ limit := by
  induction items with
  | nil => simp [itemDepth]
  | cons item items ih => rw [itemDepth, Nat.max_le, ih, List.forall_mem_cons]

/-- Fields are as deep as the deepest of their values. -/
theorem fieldDepth_le_iff {fields : List (String × Value)} {limit : Nat} :
    fieldDepth fields ≤ limit ↔ ∀ field ∈ fields, field.2.depth ≤ limit := by
  induction fields with
  | nil => simp [fieldDepth]
  | cons field fields ih => rw [fieldDepth, Nat.max_le, ih, List.forall_mem_cons]

section
variable {holds : Binary64 → Prop} {items : List Value} {fields : List (String × Value)}

/-- A float is the only one in itself. -/
theorem eachFloat_float {number : Binary64} : EachFloat holds (.float number) ↔ holds number := by
  simp [EachFloat, parts]

/-- The floats of an array are those of its items. -/
theorem eachFloat_array :
    EachFloat holds (.array items) ↔ ∀ item ∈ items, item.EachFloat holds := by
  simp only [EachFloat, parts, itemParts_eq, List.mem_cons, reduceCtorEq, false_or,
    List.mem_flatMap]
  exact ⟨fun each item member number part => each number ⟨item, member, part⟩,
    fun each number ⟨item, member, part⟩ => each item member number part⟩

/-- The floats of an object are those of its fields. -/
theorem eachFloat_object :
    EachFloat holds (.object fields) ↔ ∀ field ∈ fields, field.2.EachFloat holds := by
  simp only [EachFloat, parts, fieldParts_eq, List.mem_cons, reduceCtorEq, false_or,
    List.mem_flatMap]
  exact ⟨fun each field member number part => each number ⟨field, member, part⟩,
    fun each number ⟨field, member, part⟩ => each field member number part⟩

/-- An array is ordered when its items are. -/
theorem ordered_array : Ordered (.array items) ↔ ∀ item ∈ items, item.Ordered := by
  simp only [Ordered, parts, itemParts_eq, List.mem_cons, reduceCtorEq, false_or, List.mem_flatMap]
  exact ⟨fun each item member others part => each others ⟨item, member, part⟩,
    fun each others ⟨item, member, part⟩ => each item member others part⟩

/-- An object is ordered when its fields and their values are. -/
theorem ordered_object : Ordered (.object fields) ↔
    (fields.Pairwise fun field other => field.1 < other.1) ∧ ∀ field ∈ fields, field.2.Ordered := by
  simp only [Ordered, parts, fieldParts_eq, List.mem_cons, Value.object.injEq, List.mem_flatMap]
  constructor
  · intro each
    exact ⟨each fields (Or.inl rfl),
      fun field member others part => each others (Or.inr ⟨field, member, part⟩)⟩
  · rintro ⟨order, each⟩ others (rfl | ⟨field, member, part⟩)
    · exact order
    · exact each field member others part

end

/-- Items are alike to what becomes of them when each is. -/
theorem allAlike_map_iff {image : Value → Value} {items : List Value} :
    allAlike items (items.map image) = true ↔ ∀ item ∈ items, item.alike (image item) = true := by
  induction items with
  | nil => simp [allAlike]
  | cons item items ih => rw [List.map_cons, allAlike, Bool.and_eq_true, ih, List.forall_mem_cons]

/-- Fields are alike to what becomes of their values when each value is. -/
theorem fieldsAlike_map_iff {image : Value → Value} {fields : List (String × Value)} :
    fieldsAlike fields (fields.map fun field => (field.1, image field.2)) = true ↔
      ∀ field ∈ fields, field.2.alike (image field.2) = true := by
  induction fields with
  | nil => simp [fieldsAlike]
  | cons field fields ih =>
    rw [List.map_cons, fieldsAlike, Bool.and_eq_true, Bool.and_eq_true, ih, List.forall_mem_cons]
    simp

/-- A value with other floats in it is alike exactly when all of them are equal to the old. -/
theorem alike_mapFloats_iff {change : Binary64 → Binary64} {value : Value} :
    value.alike (value.mapFloats change) = true ↔
      value.EachFloat fun number => number.equal (change number) = true := by
  -- Floats are what is compared, and arrays and objects pass the comparison on to their parts.
  induction value with
  | null => simp [alike, mapFloats, EachFloat, parts]
  | bool value => simp [alike, mapFloats, EachFloat, parts]
  | int value => simp [alike, mapFloats, EachFloat, parts]
  | float value => rw [mapFloats, alike, eachFloat_float]
  | string value => simp [alike, mapFloats, EachFloat, parts]
  | array items ih =>
    rw [mapFloats, alike, mapItems_eq, allAlike_map_iff, eachFloat_array]
    exact forall₂_congr ih
  | object fields ih =>
    rw [mapFloats, alike, mapFields_eq, fieldsAlike_map_iff, eachFloat_object]
    exact forall₂_congr ih

/-- A value is the same with other floats in it when none of them is another one. -/
theorem mapFloats_eq_self {change : Binary64 → Binary64} {value : Value}
    (same : value.EachFloat fun number => change number = number) :
    value.mapFloats change = value := by
  induction value with
  | null => rfl
  | bool value => rfl
  | int value => rfl
  | float value => rw [mapFloats, eachFloat_float.mp same]
  | string value => rfl
  | array items ih =>
    rw [mapFloats, mapItems_eq]
    have kept : ∀ item ∈ items, item.mapFloats change = item := fun item member =>
      ih item member (eachFloat_array.mp same item member)
    rw [List.map_congr_left kept, List.map_id']
  | object fields ih =>
    rw [mapFloats, mapFields_eq]
    have kept : ∀ field ∈ fields, (field.1, field.2.mapFloats change) = field := by
      intro field member
      rw [ih field member (eachFloat_object.mp same field member)]
    rw [List.map_congr_left kept, List.map_id']

end Placeholder.Value

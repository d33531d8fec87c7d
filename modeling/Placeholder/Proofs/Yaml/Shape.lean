import Placeholder.Yaml.Writing

/-! Data hold other data, and are ordinary when nothing unusual is within them. -/

namespace Placeholder.Yaml.Datum

/-- What passes from the parts of data to the data holds of every datum. -/
@[elab_as_elim, induction_eliminator]
theorem induct {motive : Datum → Prop} (null : motive .null)
    (bool : ∀ value, motive (.bool value)) (int : ∀ value, motive (.int value))
    (float : ∀ value, motive (.float value)) (string : ∀ value, motive (.string value))
    (sequence : ∀ items, (∀ item ∈ items, motive item) → motive (.sequence items))
    (mapping : ∀ entries, (∀ entry ∈ entries, motive entry.1 ∧ motive entry.2) →
      motive (.mapping entries))
    (tagged : ∀ name datum, motive datum → motive (.tagged name datum))
    (datum : Datum) : motive datum := by
  -- The recursor has a motive of its own for items, for entries and for a single entry.
  apply @Datum.rec motive (fun items => ∀ item ∈ items, motive item)
    (fun entries => ∀ entry ∈ entries, motive entry.1 ∧ motive entry.2)
    (fun entry => motive entry.1 ∧ motive entry.2)
    null bool int float string sequence mapping tagged
  · simp
  · exact fun item items first others => List.forall_mem_cons.mpr ⟨first, others⟩
  · simp
  · exact fun entry entries first others => List.forall_mem_cons.mpr ⟨first, others⟩
  · exact fun key value heldKey held => ⟨heldKey, held⟩

/-- A datum is within another one when it is the other one or stands anywhere inside of it. -/
inductive Within (part : Datum) : Datum → Prop where
  | whole : Within part part
  | item {item : Datum} {items : List Datum} (member : item ∈ items) (inside : Within part item) :
    Within part (.sequence items)
  | key {entry : Datum × Datum} {entries : List (Datum × Datum)} (member : entry ∈ entries)
    (inside : Within part entry.1) : Within part (.mapping entries)
  | value {entry : Datum × Datum} {entries : List (Datum × Datum)} (member : entry ∈ entries)
    (inside : Within part entry.2) : Within part (.mapping entries)
  | tagged {name : String} {datum : Datum} (inside : Within part datum) :
    Within part (.tagged name datum)

/-- No tagged datum is within an ordinary one, and all keys of mappings within it are strings. -/
structure Ordinary (datum : Datum) : Prop where
  untagged : ∀ name inner, ¬ Within (.tagged name inner) datum
  keys : ∀ entries, Within (.mapping entries) datum →
    ∀ entry ∈ entries, ∃ text, entry.1 = .string text

/-- No tag within a writable datum stands right behind another tag. -/
def Writable (datum : Datum) : Prop :=
  ∀ name inner, Within (.tagged name inner) datum → inner.isTagged = false

/-- What is within a part is within the whole. -/
theorem Within.trans {inner part datum : Datum} (deeper : Within inner part)
    (inside : Within part datum) : Within inner datum := by
  -- The way to the inner datum goes on where the way to the part ends.
  induction inside with
  | whole => exact deeper
  | item member _ ih => exact .item member ih
  | key member _ ih => exact .key member ih
  | value member _ ih => exact .value member ih
  | tagged _ ih => exact .tagged ih

/-- What is within an ordinary datum is ordinary. -/
theorem Ordinary.within {part datum : Datum} (ordinary : datum.Ordinary)
    (inside : Within part datum) : part.Ordinary :=
  ⟨fun name inner deeper => ordinary.untagged name inner (deeper.trans inside),
    fun entries deeper => ordinary.keys entries (deeper.trans inside)⟩

/-- A tagged datum is not ordinary. -/
theorem not_ordinary_tagged (name : String) (datum : Datum) : ¬ (tagged name datum).Ordinary :=
  fun ordinary => ordinary.untagged name datum .whole

/-- A scalar is ordinary. -/
theorem ordinary_of_scalar? {datum : Datum} (scalar : datum.scalar?.isSome = true) :
    datum.Ordinary := by
  have alone : ∀ part, Within part datum → part = datum := by
    intro part inside
    cases inside with
    | whole => rfl
    | item | key | value | tagged => simp [scalar?] at scalar
  -- A scalar is itself neither tagged nor a mapping.
  constructor
  · intro name inner inside
    simp [← alone _ inside, scalar?] at scalar
  · intro entries inside
    simp [← alone _ inside, scalar?] at scalar

/-- A sequence is ordinary when all its items are. -/
theorem ordinary_sequence {items : List Datum} :
    (sequence items).Ordinary ↔ ∀ item ∈ items, item.Ordinary := by
  constructor
  · exact fun ordinary item member => ordinary.within (.item member .whole)
  · intro each
    constructor
    · rintro name inner (_ | ⟨member, inside⟩)
      exact (each _ member).untagged name inner inside
    · rintro entries (_ | ⟨member, inside⟩)
      exact (each _ member).keys entries inside

/-- A mapping is ordinary when all its keys are strings and all its values are ordinary. -/
theorem ordinary_mapping {entries : List (Datum × Datum)} :
    (mapping entries).Ordinary ↔
      ∀ entry ∈ entries, (∃ text, entry.1 = .string text) ∧ entry.2.Ordinary := by
  constructor
  · exact fun ordinary entry member =>
      ⟨ordinary.keys entries .whole entry member, ordinary.within (.value member .whole)⟩
  · intro each
    -- A key that is a string has nothing within it but itself.
    constructor
    · rintro name inner (_ | _ | ⟨member, inside⟩ | ⟨member, inside⟩)
      · obtain ⟨text, key⟩ := (each _ member).1
        rw [key] at inside
        cases inside
      · exact (each _ member).2.untagged name inner inside
    · rintro others (_ | _ | ⟨member, inside⟩ | ⟨member, inside⟩)
      · exact fun entry member => (each entry member).1
      · obtain ⟨text, key⟩ := (each _ member).1
        rw [key] at inside
        cases inside
      · exact (each _ member).2.keys others inside

/-- An ordinary datum is writable, since it has no tags at all. -/
theorem Ordinary.writable {datum : Datum} (ordinary : datum.Ordinary) : datum.Writable :=
  fun name inner inside => absurd inside (ordinary.untagged name inner)

/-- A sequence is writable when all its items are. -/
theorem writable_sequence {items : List Datum} :
    (sequence items).Writable ↔ ∀ item ∈ items, item.Writable := by
  constructor
  · exact fun writable item member name inner inside => writable name inner (.item member inside)
  · rintro each name inner (_ | ⟨member, inside⟩)
    exact each _ member name inner inside

/-- A mapping is writable when all its keys and values are. -/
theorem writable_mapping {entries : List (Datum × Datum)} :
    (mapping entries).Writable ↔ ∀ entry ∈ entries, entry.1.Writable ∧ entry.2.Writable := by
  constructor
  · exact fun writable entry member =>
      ⟨fun name inner inside => writable name inner (.key member inside),
        fun name inner inside => writable name inner (.value member inside)⟩
  · rintro each name inner (_ | _ | ⟨member, inside⟩ | ⟨member, inside⟩)
    · exact (each _ member).1 name inner inside
    · exact (each _ member).2 name inner inside

/-- A tagged datum is writable when it is without a second tag and writable by itself. -/
theorem writable_tagged {name : String} {datum : Datum} :
    (tagged name datum).Writable ↔ datum.isTagged = false ∧ datum.Writable := by
  constructor
  · exact fun writable =>
      ⟨writable name datum .whole, fun other inner inside => writable other inner (.tagged inside)⟩
  · rintro ⟨single, writable⟩ other inner (_ | inside)
    · exact single
    · rename_i inside
      exact writable other inner inside

/-- A sequence has distinct keys when its items have. -/
theorem keysDistinct_sequence (items : List Datum) :
    (sequence items).keysDistinct = items.all keysDistinct := by
  rw [keysDistinct]
  induction items with
  | nil => rfl
  | cons item rest ih => rw [itemsDistinct, ih, List.all_cons]

/-- A mapping has distinct keys when no two are the same, and its keys and values have. -/
theorem keysDistinct_mapping {entries : List (Datum × Datum)} :
    (mapping entries).keysDistinct = true ↔
      (∀ entry ∈ entries, entry.1.keysDistinct = true ∧ entry.2.keysDistinct = true) ∧
      entries.Pairwise fun entry other => same entry.1 other.1 = false := by
  rw [keysDistinct]
  induction entries with
  | nil => simp [entriesDistinct]
  | cons entry rest ih =>
    obtain ⟨key, value⟩ := entry
    -- The first key is compared with all others, and the others among themselves.
    rw [entriesDistinct, Bool.and_eq_true, ih]
    simp only [Bool.and_eq_true, List.all_eq_true, Bool.not_eq_true', List.forall_mem_cons,
      List.pairwise_cons]
    constructor
    · rintro ⟨⟨inside, first⟩, insides, others⟩
      exact ⟨⟨inside, insides⟩, first, others⟩
    · rintro ⟨⟨inside, insides⟩, first, others⟩
      exact ⟨⟨inside, first⟩, insides, others⟩

end Placeholder.Yaml.Datum

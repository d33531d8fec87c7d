import Placeholder.Proofs.Binary64.Nearest
import Placeholder.Proofs.Text.Runs
import Placeholder.Proofs.Value.Listings
import Placeholder.Proofs.Yaml.Writing
import Placeholder.Value.OfYaml
import Placeholder.Yaml.Reading

/-! Values mirror data as a whole, or else hold the text of the whole datum. -/

namespace Placeholder.Value

open Yaml (Datum)

/--
A value has the shape of a datum, down to the scalars.

Integers beyond the machine integers are mirrored by floats. The fields of an object are all those
of the mapping, put in order.
-/
inductive Mirrors : Value → Datum → Prop where
  | null : Mirrors .null .null
  | bool (value : Bool) : Mirrors (.bool value) (.bool value)
  | int (value : Int64) : Mirrors (.int value) (.int value.toInt)
  | wide {number : Int} (beyond : ∀ value : Int64, value.toInt ≠ number) :
    Mirrors (.float (.ofInt number)) (.int number)
  | float (value : Binary64) : Mirrors (.float value) (.float value)
  | string (text : String) : Mirrors (.string text) (.string text)
  | sequence {values : List Value} {items : List Datum} (each : List.Forall₂ Mirrors values items) :
    Mirrors (.array values) (.sequence items)
  | mapping {fields listed : List (String × Value)} {entries : List (Datum × Datum)}
    (keys : entries.map Prod.fst = listed.map fun field => .string field.1)
    (values : List.Forall₂ Mirrors (listed.map Prod.snd) (entries.map Prod.snd))
    (same : fields.Perm listed) (order : fields.Pairwise fun field other => field.1 < other.1) :
    Mirrors (.object fields) (.mapping entries)

/-- An integer is mirrored by itself, or beyond the machine integers by the nearest float. -/
theorem ofInteger_eq_iff {number : Int} {value : Value} :
    ofInteger number = value ↔ value.Mirrors (.int number) := by
  rw [ofInteger, Integer.narrow?]
  constructor
  · rintro rfl
    by_cases fits : (Int64.ofInt number).toInt = number
    · have mirrors := Mirrors.int (Int64.ofInt number)
      rw [fits] at mirrors
      rwa [if_pos fits]
    · -- A machine integer that is equal to the number would have been found.
      rw [if_neg fits]
      refine .wide fun value same => fits ?_
      rw [← same, Int64.ofInt_toInt]
  · intro mirrors
    cases mirrors with
    | int value => rw [Int64.ofInt_toInt, if_pos rfl]
    | wide beyond => rw [if_neg (beyond _)]

section Parts

variable {items : List Datum} {entries : List (Datum × Datum)} {value : Value}

/-- The values that mirror a sequence are the arrays of those that mirror its items. -/
theorem mirrors_sequence_iff :
    value.Mirrors (.sequence items) ↔
      ∃ values, List.Forall₂ Mirrors values items ∧ array values = value := by
  constructor
  · intro mirrors
    cases mirrors with
    | sequence mirrors => exact ⟨_, mirrors, rfl⟩
  · rintro ⟨values, mirrors, rfl⟩
    exact .sequence mirrors

/-- Fields with the strings of distinct keys have keys of their own. -/
theorem nodup_of_keys {listed : List (String × Value)}
    (apart : entries.Pairwise fun entry other => Datum.same entry.1 other.1 = false)
    (keys : entries.map Prod.fst = listed.map fun field => .string field.1) :
    (listed.map Prod.fst).Nodup := by
  have others : (entries.map Prod.fst).Pairwise fun key other => Datum.same key other = false :=
    List.pairwise_map.mpr apart
  rw [keys, List.pairwise_map] at others
  refine List.pairwise_map.mpr (others.imp ?_)
  intro field other different same
  simp [Datum.same, same] at different

/-- The value that mirrors a mapping is the object of the fields that mirror its entries. -/
theorem mirrors_mapping_iff
    (apart : entries.Pairwise fun entry other => Datum.same entry.1 other.1 = false) :
    value.Mirrors (.mapping entries) ↔
      ∃ listed, ((entries.map Prod.fst = listed.map fun field => .string field.1) ∧
        List.Forall₂ Mirrors (listed.map Prod.snd) (entries.map Prod.snd)) ∧
        ofFields listed = value := by
  constructor
  · intro mirrors
    cases mirrors with
    | mapping keys values same order =>
      exact ⟨_, ⟨keys, values⟩, ofFields_of_perm same.symm order⟩
  · rintro ⟨listed, ⟨keys, values⟩, rfl⟩
    obtain ⟨fields, made, same, order⟩ := exists_ofFields (nodup_of_keys apart keys)
    rw [made]
    exact .mapping keys values same order

/-- The images of items are the values that mirror them one by one. -/
theorem imageItems?_eq_some_iff {values : List Value}
    (each : ∀ item ∈ items, ∀ value, image? item = some value ↔ value.Mirrors item) :
    imageItems? items = some values ↔ List.Forall₂ Mirrors values items := by
  induction items generalizing values with
  | nil => simp [imageItems?, eq_comm]
  | cons item items ih =>
    rw [List.forall_mem_cons] at each
    simp only [imageItems?, Option.bind_eq_bind, Option.bind_eq_some_iff, Option.pure_def,
      Option.some.injEq, List.forall₂_cons_right_iff, ih each.2, each.1]
    -- Both sides take the first value and the others apart, in a different order.
    constructor
    · rintro ⟨value, first, others, rest, rfl⟩
      exact ⟨value, others, first, rest, rfl⟩
    · rintro ⟨value, others, first, rest, rfl⟩
      exact ⟨value, first, others, rest, rfl⟩

/-- The fields of entries have their strings for keys, and the values that mirror theirs. -/
theorem imageFields?_eq_some_iff {listed : List (String × Value)}
    (each : ∀ entry ∈ entries, ∀ value, image? entry.2 = some value ↔ value.Mirrors entry.2) :
    imageFields? entries = some listed ↔
      (entries.map Prod.fst = listed.map fun field => .string field.1) ∧
      List.Forall₂ Mirrors (listed.map Prod.snd) (entries.map Prod.snd) := by
  induction entries generalizing listed with
  | nil =>
    rw [imageFields?, Option.some.injEq, List.map_nil]
    constructor
    · rintro rfl
      exact ⟨rfl, .nil⟩
    · rintro ⟨keys, -⟩
      exact (List.map_eq_nil_iff.mp keys.symm).symm
  | cons entry entries ih =>
    obtain ⟨key, datum⟩ := entry
    rw [List.forall_mem_cons] at each
    constructor
    · intro found
      cases key with
      | string text =>
        simp only [imageFields?, Option.bind_eq_bind, Option.bind_eq_some_iff, Option.pure_def,
          Option.some.injEq, ih each.2, each.1] at found
        obtain ⟨value, first, others, ⟨keys, rest⟩, rfl⟩ := found
        exact ⟨by simp [keys], .cons first rest⟩
      | _ => simp [imageFields?] at found
    · rintro ⟨keys, values⟩
      cases listed with
      | nil => simp at keys
      | cons field listed =>
        simp only [List.map_cons, List.cons.injEq] at keys
        obtain ⟨rfl, keys⟩ := keys
        rw [List.map_cons, List.map_cons, List.forall₂_cons] at values
        have first := (each.1 field.2).mpr values.1
        have rest := (ih each.2).mpr ⟨keys, values.2⟩
        simp [imageFields?, first, rest]

/-- Items have images when each of them has one. -/
theorem imageItems?_isSome_iff :
    (imageItems? items).isSome = true ↔ ∀ item ∈ items, (image? item).isSome = true := by
  induction items with
  | nil => simp [imageItems?]
  | cons item items ih =>
    rw [List.forall_mem_cons, ← ih, imageItems?]
    cases image? item with
    | none => simp
    | some value => cases imageItems? items <;> simp

/-- Entries have fields when each key is a string and each value has an image. -/
theorem imageFields?_isSome_iff :
    (imageFields? entries).isSome = true ↔
      ∀ entry ∈ entries, (∃ text, entry.1 = .string text) ∧ (image? entry.2).isSome = true := by
  induction entries with
  | nil => simp [imageFields?]
  | cons entry entries ih =>
    obtain ⟨key, datum⟩ := entry
    rw [List.forall_mem_cons, ← ih]
    cases key with
    | string text =>
      cases image : image? datum with
      | none => simp [imageFields?, image]
      | some value => cases others : imageFields? entries <;> simp [imageFields?, image, others]
    | _ => simp [imageFields?]

end Parts

/-- Data have an image when they are ordinary. -/
theorem image?_isSome_iff {datum : Datum} : (image? datum).isSome = true ↔ datum.Ordinary := by
  induction datum with
  | null | bool | int | float | string =>
    exact iff_of_true rfl (Datum.ordinary_of_scalar? rfl)
  | sequence items ih =>
    rw [image?, Option.isSome_map, imageItems?_isSome_iff, Datum.ordinary_sequence]
    exact forall₂_congr ih
  | mapping entries ih =>
    rw [image?, Option.isSome_map, imageFields?_isSome_iff, Datum.ordinary_mapping]
    exact forall₂_congr fun entry member => and_congr_right fun _ => (ih entry member).2
  | tagged name datum =>
    exact iff_of_false Bool.false_ne_true (Datum.not_ordinary_tagged name datum)

/-- The image of a datum with distinct keys is the value that mirrors it. -/
theorem image?_eq_some_iff {datum : Datum} (distinct : datum.keysDistinct = true) {value : Value} :
    image? datum = some value ↔ value.Mirrors datum := by
  induction datum generalizing value with
  | null =>
    constructor
    · rintro ⟨⟩
      exact .null
    · rintro ⟨⟩
      rfl
  | bool content =>
    constructor
    · rintro ⟨⟩
      exact .bool content
    · rintro ⟨⟩
      rfl
  | float content =>
    constructor
    · rintro ⟨⟩
      exact .float content
    · rintro ⟨⟩
      rfl
  | string content =>
    constructor
    · rintro ⟨⟩
      exact .string content
    · rintro ⟨⟩
      rfl
  | int number =>
    rw [image?, Option.some.injEq]
    exact ofInteger_eq_iff
  | sequence items ih =>
    rw [Datum.keysDistinct_sequence, List.all_eq_true] at distinct
    have each := fun values => @imageItems?_eq_some_iff items values
      fun item member value => ih item member (distinct item member)
    simp only [image?, Option.map_eq_some_iff, each, mirrors_sequence_iff]
  | mapping entries ih =>
    obtain ⟨inside, apart⟩ := Datum.keysDistinct_mapping.mp distinct
    have each := fun listed => @imageFields?_eq_some_iff entries listed
      fun entry member value => (ih entry member).2 (inside entry member).2
    simp only [image?, Option.map_eq_some_iff, each, mirrors_mapping_iff apart]
  | tagged name datum =>
    constructor
    · rintro ⟨⟩
    · rintro ⟨⟩

/-- A value is a text without the blanks at its end. -/
def Transcribes (value : Value) (text : String) : Prop :=
  ∃ kept blanks, value = .string (String.ofList kept) ∧ text.toList = kept ++ blanks ∧
    (∀ c ∈ blanks, Text.isBlank c = true) ∧ kept.getLast?.any Text.isBlank = false

/-- What is dropped at the end of a text are all the blanks there. -/
theorem transcribes_trimEnd (text : String) :
    (string (String.ofList (Text.trimEnd text.toList))).Transcribes text := by
  -- The blanks at the end come first when the text is turned around.
  have whole := @List.takeWhile_append_dropWhile _ Text.isBlank text.toList.reverse
  refine ⟨_, (text.toList.reverse.takeWhile Text.isBlank).reverse, rfl, ?_, ?_, ?_⟩
  · rw [Text.trimEnd, ← List.reverse_append, whole, List.reverse_reverse]
  · intro c member
    exact List.all_eq_true.mp List.all_takeWhile c (List.mem_reverse.mp member)
  · rw [Text.trimEnd, List.getLast?_reverse]
    exact Text.stop_dropWhile Text.isBlank _

/-- Data without an image become their text, or the empty text without one. -/
theorem ofYaml_of_not_ordinary {datum : Datum} (unusual : ¬ datum.Ordinary) :
    ofYaml datum =
      .string (String.ofList (Text.trimEnd (datum.toText?.getD "").toList)) := by
  rw [← image?_isSome_iff, Bool.not_eq_true, Option.isSome_eq_false_iff,
    Option.isNone_iff_eq_none] at unusual
  rw [ofYaml, unusual]

/-- Writable data without an image become their text. -/
theorem ofYaml_of_writable {datum : Datum} (unusual : ¬ datum.Ordinary)
    (writable : datum.Writable) :
    ∃ text, datum.toText? = some text ∧ (ofYaml datum).Transcribes text := by
  obtain ⟨text, written⟩ :=
    Option.isSome_iff_exists.mp (Datum.toText?_isSome_iff.mpr writable)
  refine ⟨text, written, ?_⟩
  rw [ofYaml_of_not_ordinary unusual, written]
  exact transcribes_trimEnd text

/-- Data that cannot be written have no text and become the empty string. -/
theorem ofYaml_of_not_writable {datum : Datum} (unwritable : ¬ datum.Writable) :
    datum.toText? = none ∧ ofYaml datum = .string "" := by
  have missing : datum.toText? = none := by
    rwa [← Datum.toText?_isSome_iff, Bool.not_eq_true, Option.isSome_eq_false_iff,
      Option.isNone_iff_eq_none] at unwritable
  -- They hold tags, and so they are not ordinary.
  refine ⟨missing, ?_⟩
  rw [ofYaml_of_not_ordinary fun ordinary => unwritable ordinary.writable, missing]
  rfl

/-- Data with an image become the value that mirrors them. -/
theorem ofYaml_eq_iff {datum : Datum} (distinct : datum.keysDistinct = true)
    (ordinary : datum.Ordinary) {value : Value} :
    ofYaml datum = value ↔ value.Mirrors datum := by
  obtain ⟨image, found⟩ := Option.isSome_iff_exists.mp (image?_isSome_iff.mpr ordinary)
  rw [← image?_eq_some_iff distinct, ofYaml, found, Option.some.injEq]

/-- Texts in which a key comes twice are not read. -/
theorem keysDistinct_of_ofText? {text : String} {datum : Datum}
    (read : Datum.ofText? text = some datum) : datum.keysDistinct = true := by
  simp only [Datum.ofText?, Option.bind_eq_bind, Option.bind_eq_some_iff] at read
  obtain ⟨document, -, other, -, read⟩ := read
  split at read
  · rename_i distinct
    cases read
    exact distinct
  · cases read

/--
Data become values as a whole.

Ordinary data, in which no part is tagged and all keys are strings, become the only value that
mirrors them in all their parts.
All other data become the text of the whole datum, so that no container holds a part of the data.
Data with a tag right behind a tag have no text, and become the empty string.
No text is read as such data, and the keys of all data that are read are distinct.
-/
theorem data_convert_as_a_whole :
    (∀ text datum, Datum.ofText? text = some datum →
      datum.keysDistinct = true ∧ datum.Writable) ∧
    (∀ datum : Datum, datum.keysDistinct = true →
      (datum.Ordinary → ∀ value, ofYaml datum = value ↔ value.Mirrors datum) ∧
      (¬ datum.Ordinary → datum.Writable →
        ∃ text, datum.toText? = some text ∧ (ofYaml datum).Transcribes text) ∧
      (¬ datum.Writable → datum.toText? = none ∧ ofYaml datum = .string "") ∧
      ((ofYaml datum).string? = none → (ofYaml datum).Mirrors datum)) ∧
    ∀ number : Int, number.natAbs < 2 ^ 64 → Binary64.NearestTo number (.ofInt number) := by
  refine ⟨fun text datum read => ⟨keysDistinct_of_ofText? read, Datum.writable_of_ofText? read⟩, ?_,
    fun number => Binary64.nearestTo_ofInt⟩
  intro datum distinct
  refine ⟨fun ordinary value => ofYaml_eq_iff distinct ordinary, ofYaml_of_writable,
    ofYaml_of_not_writable, ?_⟩
  intro container
  by_cases ordinary : datum.Ordinary
  · exact (ofYaml_eq_iff distinct ordinary).mp rfl
  · -- A text would be a string.
    rw [ofYaml_of_not_ordinary ordinary] at container
    cases container

/-- One tag inside keeps the text of a whole mapping, and a second one behind it leaves none. -/
theorem one_tag_keeps_whole_text :
    (ofYaml (.mapping [(.string "b", .int (2 ^ 63)), (.string "a", .sequence [.null])])).Mirrors
      (.mapping [(.string "b", .int (2 ^ 63)), (.string "a", .sequence [.null])]) ∧
    Binary64.NearestTo (2 ^ 63) (.ofInt (2 ^ 63)) ∧
    (∃ text,
      (Datum.mapping [(.string "b", .sequence [.null, .tagged "t" (.int 2)])]).toText? = some text ∧
      (ofYaml (.mapping [(.string "b", .sequence [.null, .tagged "t" (.int 2)])])).Transcribes
        text) ∧
    (ofYaml (.mapping [(.string "b", .sequence [.null, .tagged "t" (.int 2)])])).string? =
      some "b:\n- null\n- !t 2" ∧
    (Datum.sequence [.tagged "s" (.tagged "t" (.int 2))]).toText? = none ∧
    ofYaml (.sequence [.tagged "s" (.tagged "t" (.int 2))]) = .string "" := by
  obtain ⟨-, converts, nearest⟩ := data_convert_as_a_whole
  refine ⟨(converts _ ?_).2.2.2 ?_, nearest _ ?_, (converts _ ?_).2.1 ?_ ?_, ?_,
    (converts _ ?_).2.2.1 ?_⟩
  · simp [Datum.keysDistinct, Datum.entriesDistinct, Datum.itemsDistinct, Datum.same]
  · decide +kernel
  · omega
  · simp [Datum.keysDistinct, Datum.entriesDistinct, Datum.itemsDistinct]
  · rw [← image?_isSome_iff]
    decide +kernel
  · rw [← Datum.toText?_isSome_iff]
    decide +kernel
  · decide +kernel
  · simp [Datum.keysDistinct, Datum.itemsDistinct]
  · rw [← Datum.toText?_isSome_iff]
    decide +kernel

end Placeholder.Value

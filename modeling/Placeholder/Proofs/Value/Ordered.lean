import Placeholder.Proofs.Value.Listings
import Placeholder.Proofs.Yaml.Shape
import Placeholder.Value.OfYaml
import Placeholder.Value.Reading

/-! Whatever is read as a value has the fields of its objects in order. -/

namespace Placeholder.Value

open Yaml (Datum)

/-- A value that is neither an array nor an object is ordered. -/
theorem ordered_of_parts {value : Value} (alone : value.parts = [value])
    (plain : value.object? = none) : value.Ordered := by
  intro fields part
  rw [alone, List.mem_singleton] at part
  rw [← part] at plain
  cases plain

/-- An integer is ordered, whether it becomes a float or not. -/
theorem ordered_ofInteger (number : Int) : (ofInteger number).Ordered := by
  unfold ofInteger
  split
  · exact ordered_of_parts rfl rfl
  · exact ordered_of_parts rfl rfl

/-- Numbers are read as values without fields. -/
theorem ordered_number? {negative : Bool} {text rest : List Char} {value : Value}
    (read : number? negative text = some (value, rest)) : value.Ordered := by
  -- However the magnitude is found, a float is made of it.
  have scaled : ∀ {found : Option Binary64} {behind : List Char},
      (found.bind fun magnitude => some (float (signed negative magnitude), behind)) =
        some (value, rest) → value.Ordered := by
    intro found behind read
    obtain ⟨magnitude, -, same⟩ := Option.bind_eq_some_iff.mp read
    cases same
    exact ordered_of_parts rfl rfl
  simp only [number?, Option.bind_eq_bind, Option.bind_eq_some_iff, Option.pure_def] at read
  obtain ⟨whole, -, fraction, -, exponent, -, read⟩ := read
  split at read
  · cases read
    unfold ofSignificand
    split
    · split
      · exact ordered_of_parts rfl rfl
      · exact ordered_ofInteger _
    · exact ordered_ofInteger _
  · split at read
    · exact scaled read
    · split at read
      · split at read
        · exact scaled read
        · exact scaled read
      · exact scaled read

/-- Items are ordered when whatever is read of them is. -/
theorem ordered_items? {item? : List Char → Option (Value × List Char)}
    (each : ∀ text value rest, item? text = some (value, rest) → value.Ordered) {budget : Nat}
    {text rest : List Char} {items : List Value}
    (read : items? item? budget text = some (items, rest)) : ∀ item ∈ items, item.Ordered := by
  induction budget generalizing text items rest with
  | zero => cases read
  | succ budget ih =>
    simp only [items?, Option.bind_eq_bind, Option.bind_eq_some_iff] at read
    obtain ⟨⟨item, behind⟩, first, read⟩ := read
    have ordered := each _ _ _ first
    dsimp only at read
    split at read
    · simp only [Option.bind_eq_some_iff] at read
      obtain ⟨⟨others, left⟩, more, read⟩ := read
      cases read
      exact List.forall_mem_cons.mpr ⟨ordered, ih more⟩
    · cases read
      exact List.forall_mem_singleton.mpr ordered
    · cases read

/-- The values of fields are ordered when whatever is read of them is. -/
theorem ordered_fields? {item? : List Char → Option (Value × List Char)}
    (each : ∀ text value rest, item? text = some (value, rest) → value.Ordered) {budget : Nat}
    {text rest : List Char} {fields : List (String × Value)}
    (read : fields? item? budget text = some (fields, rest)) :
    ∀ field ∈ fields, field.2.Ordered := by
  induction budget generalizing text fields rest with
  | zero => cases read
  | succ budget ih =>
    rw [fields?] at read
    split at read
    · simp only [Option.bind_eq_bind, Option.bind_eq_some_iff] at read
      obtain ⟨⟨key, behind⟩, -, read⟩ := read
      dsimp only at read
      split at read
      · simp only [Option.bind_eq_some_iff] at read
        obtain ⟨⟨value, left⟩, first, read⟩ := read
        have ordered := each _ _ _ first
        dsimp only at read
        split at read
        · simp only [Option.bind_eq_some_iff] at read
          obtain ⟨⟨others, further⟩, more, read⟩ := read
          cases read
          exact List.forall_mem_cons.mpr ⟨ordered, ih more⟩
        · cases read
          exact List.forall_mem_singleton.mpr ordered
        · cases read
      · cases read
    · cases read

/-- A value is read with the fields of its objects in order. -/
theorem ordered_value? {depth : Nat} {text rest : List Char} {value : Value}
    (read : value? depth text = some (value, rest)) : value.Ordered := by
  -- Arrays and objects are read within a depth that is one less.
  induction depth using Nat.strongRecOn generalizing text rest value with
  | ind depth ih =>
    unfold value? at read
    split at read
    any_goals
      cases read
      exact ordered_of_parts rfl rfl
    · obtain ⟨found, -, same⟩ := Option.map_eq_some_iff.mp read
      cases same
      exact ordered_of_parts rfl rfl
    · exact ordered_number? read
    · split at read
      · cases read
      · rename_i less
        split at read
        · cases read
          exact ordered_array.mpr (List.forall_mem_nil _)
        · obtain ⟨found, items, same⟩ := Option.map_eq_some_iff.mp read
          cases same
          exact ordered_array.mpr (ordered_items? (fun _ _ _ => ih less (Nat.lt_succ_self _)) items)
    · split at read
      · cases read
      · rename_i less
        split at read
        · cases read
          exact ordered_ofFields (List.forall_mem_nil _)
        · obtain ⟨found, fields, same⟩ := Option.map_eq_some_iff.mp read
          cases same
          have values := ordered_fields? (fun _ _ _ => ih less (Nat.lt_succ_self _)) fields
          exact ordered_ofFields values
    · exact ordered_number? read

/-- Whatever JSON text is read, the value is ordered. -/
theorem ordered_ofJson? {text : String} {value : Value} (read : ofJson? text = some value) :
    value.Ordered := by
  simp only [ofJson?, Option.bind_eq_bind, Option.bind_eq_some_iff] at read
  obtain ⟨⟨found, rest⟩, first, read⟩ := read
  split at read
  · cases read
    exact ordered_value? first
  · cases read

/-- The images of items are images of some of them. -/
theorem exists_imageItems? {items : List Datum} {values : List Value}
    (found : imageItems? items = some values) :
    ∀ value ∈ values, ∃ item ∈ items, image? item = some value := by
  induction items generalizing values with
  | nil =>
    cases found
    exact List.forall_mem_nil _
  | cons item items ih =>
    simp only [imageItems?, Option.bind_eq_bind, Option.bind_eq_some_iff] at found
    obtain ⟨first, image, others, rest, same⟩ := found
    cases same
    refine List.forall_mem_cons.mpr ⟨⟨item, List.mem_cons_self, image⟩, fun value member => ?_⟩
    obtain ⟨other, inside, image⟩ := ih rest value member
    exact ⟨other, List.mem_cons_of_mem _ inside, image⟩

/-- The fields of entries have images of values of some of them. -/
theorem exists_imageFields? {entries : List (Datum × Datum)} {fields : List (String × Value)}
    (found : imageFields? entries = some fields) :
    ∀ field ∈ fields, ∃ entry ∈ entries, image? entry.2 = some field.2 := by
  induction entries generalizing fields with
  | nil =>
    cases found
    exact List.forall_mem_nil _
  | cons entry entries ih =>
    obtain ⟨key, datum⟩ := entry
    cases key with
    | string key =>
      simp only [imageFields?, Option.bind_eq_bind, Option.bind_eq_some_iff] at found
      obtain ⟨first, image, others, rest, same⟩ := found
      cases same
      refine List.forall_mem_cons.mpr ⟨⟨_, List.mem_cons_self, image⟩, fun field member => ?_⟩
      obtain ⟨other, inside, image⟩ := ih rest field member
      exact ⟨other, List.mem_cons_of_mem _ inside, image⟩
    | _ => cases found

/-- The image of a datum is ordered. -/
theorem ordered_image? {datum : Datum} {value : Value} (found : image? datum = some value) :
    value.Ordered := by
  induction datum generalizing value with
  | null | bool | float | string =>
    cases found
    exact ordered_of_parts rfl rfl
  | int number =>
    cases found
    exact ordered_ofInteger number
  | sequence items ih =>
    obtain ⟨values, images, rfl⟩ := Option.map_eq_some_iff.mp found
    refine ordered_array.mpr fun value member => ?_
    obtain ⟨item, inside, image⟩ := exists_imageItems? images value member
    exact ih item inside image
  | mapping entries ih =>
    obtain ⟨fields, images, rfl⟩ := Option.map_eq_some_iff.mp found
    refine ordered_ofFields fun field member => ?_
    obtain ⟨entry, inside, image⟩ := exists_imageFields? images field member
    exact (ih entry inside).2 image
  | tagged => cases found

/-- Whatever a datum is like, its value is ordered. -/
theorem ordered_ofYaml (datum : Datum) : (ofYaml datum).Ordered := by
  unfold ofYaml
  split
  · exact ordered_image? (by assumption)
  · exact ordered_of_parts rfl rfl

end Placeholder.Value

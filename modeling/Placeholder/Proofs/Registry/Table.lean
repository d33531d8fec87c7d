import Mathlib.Data.List.Sort
import Mathlib.Data.String.Basic
import Placeholder.Proofs.Association
import Placeholder.Registry

/-! A table holds one generator for each of its names, and shows the names in increasing order. -/

namespace Placeholder.Table

/-- The registered names, the last to be registered first. -/
def keys (table : Table) : List String :=
  table.entries.map Prod.fst

/-- No name has two generators. -/
def Distinct (table : Table) : Prop :=
  table.keys.Nodup

/-- A table contains its names. -/
theorem contains_iff {table : Table} {name : String} :
    table.contains name = true ↔ name ∈ table.keys := by
  simp [contains, keys]

/-- A table contains a name when a lookup finds a generator for it. -/
theorem contains_eq_isSome (table : Table) (name : String) :
    table.contains name = (table.lookup name).isSome := by
  rw [Bool.eq_iff_iff, contains_iff, lookup, Association.lookup_isSome_iff_mem, keys]

/-- A table has as many generators as names. -/
theorem size_eq_length_keys (table : Table) : table.size = table.keys.length := by
  simp [size, keys]

/-- The shown names are the registered ones. -/
theorem mem_names {table : Table} {name : String} : name ∈ table.names ↔ name ∈ table.keys :=
  (List.mergeSort_perm _ _).mem_iff

/-- The shown names increase from each one to the next. -/
theorem names_increase {table : Table} (distinct : table.Distinct) :
    table.names.Pairwise (· < ·) := by
  have sorted : table.names.Pairwise (· ≤ ·) := List.pairwise_mergeSort' (· ≤ ·) _
  have once : table.names.Nodup := (List.mergeSort_perm _ _).nodup_iff.mpr distinct
  -- Names in order that all differ are in strict order.
  exact sorted.imp₂ (fun _ _ ordered differ => lt_of_le_of_ne ordered differ) once

/-- The text of a table with given names. -/
def summaryOf (names : List String) : String :=
  "CustomRegistry \x7b generators: [" ++
    ", ".intercalate (names.map fun name => "\"" ++ name ++ "\"") ++ "] \x7d"

/-- The text of a table depends on its names alone. -/
theorem summary_eq (table : Table) : table.summary = summaryOf table.names :=
  rfl

/-- Tables with the same names show them in the same way. -/
theorem names_eq {left right : Table} (leftDistinct : left.Distinct)
    (rightDistinct : right.Distinct) (same : ∀ name, name ∈ left.keys ↔ name ∈ right.keys) :
    left.names = right.names := by
  -- There is one way only to put names in strict order.
  refine (names_increase leftDistinct).eq_of_mem_iff (names_increase rightDistinct) ?_
  intro name
  rw [mem_names, mem_names, same]

/-- Tables are alike when nothing that they can be asked tells them apart. -/
structure Alike (left right : Table) : Prop where
  lookup : ∀ name, left.lookup name = right.lookup name
  contains : ∀ name, left.contains name = right.contains name
  size : left.size = right.size
  summary : left.summary = right.summary

/-- A table is like itself. -/
theorem Alike.refl (table : Table) : table.Alike table :=
  ⟨fun _ => rfl, fun _ => rfl, rfl, rfl⟩

/-- Tables that find the same generators are alike in everything else. -/
theorem alike_of_lookup {left right : Table} (leftDistinct : left.Distinct)
    (rightDistinct : right.Distinct) (same : ∀ name, left.lookup name = right.lookup name) :
    left.Alike right := by
  have contained : ∀ name, left.contains name = right.contains name := by
    intro name
    rw [contains_eq_isSome, contains_eq_isSome, same]
  have keys : ∀ name, name ∈ left.keys ↔ name ∈ right.keys := by
    intro name
    rw [← contains_iff, ← contains_iff, contained]
  exact {
    lookup := same
    contains := contained
    size := by
      rw [size_eq_length_keys, size_eq_length_keys]
      exact ((List.perm_ext_iff_of_nodup leftDistinct rightDistinct).mpr keys).length_eq
    summary := by rw [summary_eq, summary_eq, names_eq leftDistinct rightDistinct keys] }

/-- Why a name is refused after earlier names. -/
inductive Refusal (earlier : List String) (name : String) : RegistryError → Prop where
  | invalid (noWord : Text.isWord name.toList = false) : Refusal earlier name (.invalidName name)
  | repeated (word : Text.isWord name.toList = true) (seen : name ∈ earlier) :
    Refusal earlier name (.alreadyRegistered name)

/-- A name is invalid unless it is a word. -/
theorem refusal_invalid_iff {earlier : List String} {name : String} :
    Refusal earlier name (.invalidName name) ↔ Text.isWord name.toList = false := by
  constructor
  · intro refusal
    cases refusal with
    | invalid noWord => exact noWord
  · exact .invalid

/-- A name is repeated when it is a word that came earlier. -/
theorem refusal_repeated_iff {earlier : List String} {name : String} :
    Refusal earlier name (.alreadyRegistered name) ↔
      Text.isWord name.toList = true ∧ name ∈ earlier := by
  constructor
  · intro refusal
    cases refusal with
    | repeated word seen => exact ⟨word, seen⟩
  · intro seen
    exact .repeated seen.1 seen.2

/-- A table records the first call for each name that is a word, and nothing else. -/
structure Records (table : Table) (calls : List (String × Generator)) : Prop where
  distinct : table.Distinct
  entry : ∀ name generator, (name, generator) ∈ table.entries ↔
    Text.isWord name.toList = true ∧ calls.lookup name = some generator

/-- The empty table records no calls. -/
theorem Records.empty : Records {} [] :=
  ⟨List.nodup_nil, by simp⟩

/-- A name is found with the generator of its first call. -/
theorem Records.lookup {table : Table} {calls : List (String × Generator)}
    (records : table.Records calls) (name : String) :
    table.lookup name = if Text.isWord name.toList then calls.lookup name else none := by
  -- No name has two entries, so what is found is the entry that was recorded.
  refine Option.ext fun generator => ?_
  rw [Table.lookup, Association.lookup_eq_some_iff_mem records.distinct, records.entry]
  split
  · rename_i word
    simp [word]
  · rename_i noWord
    simp [noWord]

/-- The names of a table are the words among the names that were called for. -/
theorem Records.mem_keys {table : Table} {calls : List (String × Generator)}
    (records : table.Records calls) {name : String} :
    name ∈ table.keys ↔ Text.isWord name.toList = true ∧ name ∈ calls.map Prod.fst := by
  -- A word is found in the table when it is found among the calls.
  rw [← contains_iff, contains_eq_isSome, records.lookup]
  split
  · rename_i word
    simp [word]
  · rename_i noWord
    simp [noWord]

/-- A table contains a word that was called for. -/
theorem Records.contains_iff {table : Table} {calls : List (String × Generator)}
    (records : table.Records calls) {name : String} (word : Text.isWord name.toList = true) :
    table.contains name = true ↔ name ∈ calls.map Prod.fst := by
  rw [Table.contains_iff, records.mem_keys, and_iff_right word]

/-- A call is refused for a name that is no word or was called for before. -/
theorem Records.register_eq_error_iff {table : Table} {calls : List (String × Generator)}
    (records : table.Records calls) {name : String} {generator : Generator}
    {cause : RegistryError} :
    table.register name generator = .error cause ↔ Refusal (calls.map Prod.fst) name cause := by
  constructor
  · intro refused
    -- The name is tested first, and only a word is looked for in the table.
    rw [register] at refused
    split at refused
    · rename_i noWord
      cases refused
      exact .invalid (by simpa using noWord)
    · rename_i word
      have word : Text.isWord name.toList = true := by simpa using word
      split at refused
      · rename_i contained
        cases refused
        exact .repeated word ((records.contains_iff word).mp contained)
      · cases refused
  · intro refusal
    cases refusal with
    | invalid noWord => simp [register, noWord]
    | repeated word seen => simp [register, word, (records.contains_iff word).mpr seen]

/-- A call is carried out for a word that was not called for before. -/
theorem Records.register_eq_ok_iff {table next : Table} {calls : List (String × Generator)}
    (records : table.Records calls) {name : String} {generator : Generator} :
    table.register name generator = .ok next ↔
      (Text.isWord name.toList = true ∧ name ∉ calls.map Prod.fst) ∧
        next = { entries := (name, generator) :: table.entries } := by
  constructor
  · intro accepted
    -- Both refusals are excluded, which leaves the new entry in front of the others.
    rw [register] at accepted
    split at accepted
    · cases accepted
    · rename_i word
      have word : Text.isWord name.toList = true := by simpa using word
      split at accepted
      · cases accepted
      · rename_i unknown
        cases accepted
        rw [records.contains_iff word] at unknown
        exact ⟨⟨word, unknown⟩, rfl⟩
  · intro accepted
    obtain ⟨⟨word, fresh⟩, rfl⟩ := accepted
    rw [← records.contains_iff word] at fresh
    simp [register, word, fresh]

/-- A table that registers a generator records one more call. -/
theorem Records.accepted {table next : Table} {calls : List (String × Generator)}
    (records : table.Records calls) {name : String} {generator : Generator}
    (registered : table.register name generator = .ok next) :
    next.Records (calls ++ [(name, generator)]) := by
  obtain ⟨⟨word, fresh⟩, rfl⟩ := records.register_eq_ok_iff.mp registered
  constructor
  · rw [Distinct, keys, List.map_cons, List.nodup_cons]
    exact ⟨fun member => fresh (records.mem_keys.mp member).2, records.distinct⟩
  · intro other found
    rw [List.mem_cons, records.entry, Association.lookup_concat]
    -- The new entry is for its own name only, which no earlier call has.
    by_cases same : other = name
    · subst same
      have unseen : calls.lookup other = none := by
        rw [← Option.not_isSome_iff_eq_none, Association.lookup_isSome_iff_mem]
        exact fresh
      simp [unseen, word, eq_comm]
    · simp [same]

/-- A refused call changes nothing about the first calls of words. -/
theorem Records.refused {table : Table} {calls : List (String × Generator)}
    (records : table.Records calls) {name : String} {cause : RegistryError}
    (refusal : Refusal (calls.map Prod.fst) name cause) (generator : Generator) :
    table.Records (calls ++ [(name, generator)]) := by
  refine ⟨records.distinct, ?_⟩
  intro other found
  rw [records.entry, Association.lookup_concat, and_congr_right_iff]
  intro word
  -- The refused call is behind the first one of its name, or its name is no word.
  by_cases same : other = name
  · subst same
    cases refusal with
    | invalid noWord => simp [noWord] at word
    | repeated _ seen =>
      obtain ⟨first, known⟩ :=
        Option.isSome_iff_exists.mp (Association.lookup_isSome_iff_mem.mpr seen)
      simp [known]
  · simp [same]

end Placeholder.Table

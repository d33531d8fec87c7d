import Mathlib.Data.List.Nodup

/-! Lists of keys with values, in which a lookup finds the first entry of a key. -/

namespace Placeholder.Association

/-- A lookup among changed values finds the changed value. -/
theorem lookup_map_snd {κ α β : Type} [BEq κ] (change : α → β) (entries : List (κ × α))
    (key : κ) :
    (entries.map fun entry => (entry.1, change entry.2)).lookup key =
      (entries.lookup key).map change := by
  -- The keys are the same, so both lookups stop at the same entry.
  induction entries with
  | nil => rfl
  | cons entry rest ih =>
    rw [List.map_cons, List.lookup_cons, List.lookup_cons]
    split
    · rfl
    · exact ih

/-- An entry behind all others is found when none of them has its key. -/
theorem lookup_concat {κ α : Type} [BEq κ] (entries : List (κ × α)) (key other : κ) (value : α) :
    (entries ++ [(other, value)]).lookup key =
      (entries.lookup key).or (if key == other then some value else none) := by
  -- The lookup reaches the last entry when it has passed all the others.
  rw [List.lookup_append, List.lookup_cons]
  cases key == other with
  | false => rfl
  | true => rfl

variable {κ α : Type} [BEq κ] [LawfulBEq κ]

/-- A key is found unless it stands nowhere. -/
theorem lookup_isSome_iff_mem {entries : List (κ × α)} {key : κ} :
    (entries.lookup key).isSome ↔ key ∈ entries.map Prod.fst := by
  -- The entry that is found has the key, and an entry of the key ends the search at the latest.
  rw [List.lookup_isSome_iff, List.mem_map]
  simp only [beq_iff_eq, @eq_comm κ key]

/-- A lookup from the end passes an entry of another key and one that a later entry hides. -/
theorem lookup_reverse_idle {before after : List (κ × α)} {key other : κ} {value : α}
    (idle : key ≠ other ∨ key ∈ after.map Prod.fst) :
    (before ++ (other, value) :: after).reverse.lookup key =
      (before ++ after).reverse.lookup key := by
  -- From the end the lookup sees the later entries, then the idle one, then the earlier ones.
  simp only [List.reverse_append, List.reverse_cons, List.append_assoc, List.lookup_append]
  rcases idle with different | later
  · have passed : (key == other) = false := beq_eq_false_iff_ne.mpr different
    simp [List.lookup_cons, passed]
  · -- The later entry is met first, so neither lookup goes on to the front.
    have met : (after.reverse.lookup key).isSome := by
      rw [lookup_isSome_iff_mem, List.map_reverse, List.mem_reverse]
      exact later
    obtain ⟨found, met⟩ := Option.isSome_iff_exists.mp met
    simp [met]

/-- A key that stands once is found with exactly the value it stands with. -/
theorem lookup_eq_some_iff_mem {entries : List (κ × α)}
    (distinct : (entries.map Prod.fst).Nodup) {key : κ} {value : α} :
    entries.lookup key = some value ↔ (key, value) ∈ entries := by
  -- The entry that the lookup stops at is the only one of its key.
  induction entries with
  | nil => simp
  | cons entry rest ih =>
    obtain ⟨other, stored⟩ := entry
    rw [List.map_cons, List.nodup_cons] at distinct
    by_cases same : key = other
    · subst same
      have absent : (key, value) ∉ rest := by
        intro member
        exact distinct.1 (List.mem_map.mpr ⟨(key, value), member, rfl⟩)
      simp [absent, eq_comm]
    · have different : (key == other) = false := beq_eq_false_iff_ne.mpr same
      simp [List.lookup_cons, different, same, ih distinct.2]

end Placeholder.Association

import Mathlib.Data.List.Perm.Basic
import Placeholder.Proofs.Value.Parts

/-! Objects may list their fields in any order, and each value has one listing that is in order. -/

namespace Placeholder.Value

/-- A value with the fields of all its objects in order, which stands for all its listings. -/
structure Canonical where
  value : Value
  ordered : value.Ordered

/-- A value lists another one when only the fields of their objects may stand in another order. -/
inductive Lists : Value → Value → Prop where
  | null : Lists .null .null
  | bool (value : Bool) : Lists (.bool value) (.bool value)
  | int (value : Int64) : Lists (.int value) (.int value)
  | float (value : Binary64) : Lists (.float value) (.float value)
  | string (text : String) : Lists (.string text) (.string text)
  | array {items others : List Value} (each : List.Forall₂ Lists items others) :
    Lists (.array items) (.array others)
  | object {written listed fields : List (String × Value)} (same : written.Perm listed)
    (keys : listed.map Prod.fst = fields.map Prod.fst)
    (values : List.Forall₂ Lists (listed.map Prod.snd) (fields.map Prod.snd)) :
    Lists (.object written) (.object fields)

/-- A field under a new key is put in among the others. -/
theorem insertField_perm {key : String} {value : Value} {fields : List (String × Value)}
    (new : key ∉ fields.map Prod.fst) :
    (insertField key value fields).Perm ((key, value) :: fields) := by
  -- No field gives way, and those in front of the new one change places with it.
  induction fields with
  | nil => rfl
  | cons field fields ih =>
    obtain ⟨other, old⟩ := field
    simp only [List.map_cons, List.mem_cons, not_or] at new
    rw [insertField]
    split
    · rfl
    · rw [if_neg new.1]
      exact ((ih new.2).cons (other, old)).trans (.swap _ _ _)

/-- No field comes in but the one that is put in. -/
theorem mem_insertField {key : String} {value : Value} {fields : List (String × Value)}
    {field : String × Value} (member : field ∈ insertField key value fields) :
    field = (key, value) ∨ field ∈ fields := by
  induction fields with
  | nil => exact Or.inl (List.mem_singleton.mp member)
  | cons first fields ih =>
    obtain ⟨other, old⟩ := first
    rw [insertField] at member
    split at member
    · exact List.mem_cons.mp member
    · split at member
      · rcases List.mem_cons.mp member with same | behind
        · exact Or.inl same
        · exact Or.inr (List.mem_cons_of_mem _ behind)
      · rcases List.mem_cons.mp member with rfl | behind
        · exact Or.inr List.mem_cons_self
        · exact (ih behind).imp_right (List.mem_cons_of_mem _)

/-- Fields stay in order when one is put in. -/
theorem insertField_ordered {key : String} {value : Value} {fields : List (String × Value)}
    (order : fields.Pairwise fun field other => field.1 < other.1) :
    (insertField key value fields).Pairwise fun field other => field.1 < other.1 := by
  induction fields with
  | nil => simp [insertField]
  | cons field fields ih =>
    obtain ⟨other, old⟩ := field
    obtain ⟨first, rest⟩ := List.pairwise_cons.mp order
    rw [insertField]
    split
    · -- The new key is below the first one, and so below all others.
      rename_i below
      refine List.pairwise_cons.mpr ⟨?_, order⟩
      rintro field (_ | ⟨_, member⟩)
      · exact below
      · exact String.lt_trans below (first field member)
    · rename_i notBelow
      split
      · rename_i same
        exact List.pairwise_cons.mpr ⟨same ▸ first, rest⟩
      · rename_i different
        have above : other < key := by
          apply Decidable.byContradiction
          intro notAbove
          exact different
            (String.le_antisymm (String.not_lt.mp notAbove) (String.not_lt.mp notBelow))
        refine List.pairwise_cons.mpr ⟨?_, ih rest⟩
        intro field member
        rcases mem_insertField member with rfl | member
        · exact above
        · exact first field member

/-- Fields under keys of their own make up an object with all of them in order. -/
theorem exists_ofFields {listed : List (String × Value)} (distinct : (listed.map Prod.fst).Nodup) :
    ∃ fields, ofFields listed = .object fields ∧ fields.Perm listed ∧
      fields.Pairwise fun field other => field.1 < other.1 := by
  -- The fields that are there already are in order, and no key comes twice.
  have all : ∀ before : List (String × Value), ((before ++ listed).map Prod.fst).Nodup →
      before.Pairwise (fun field other => field.1 < other.1) →
      let fields := listed.foldl (fun ordered field => insertField field.1 field.2 ordered) before
      fields.Perm (before ++ listed) ∧ fields.Pairwise fun field other => field.1 < other.1 := by
    clear distinct
    induction listed with
    | nil => exact fun before _ order => ⟨by simp, order⟩
    | cons field listed ih =>
      obtain ⟨key, value⟩ := field
      intro before distinct order
      have moved : (before ++ (key, value) :: listed).Perm ((key, value) :: before ++ listed) :=
        List.perm_middle
      have new : key ∉ before.map Prod.fst := by
        have rest := (moved.map Prod.fst).nodup_iff.mp distinct
        simp only [List.cons_append, List.map_cons, List.nodup_cons, List.map_append] at rest
        exact fun member => rest.1 (List.mem_append_left _ member)
      have put := (@insertField_perm key value before new).append_right listed
      obtain ⟨perm, ordered⟩ := ih (insertField key value before)
        ((put.trans moved.symm).map Prod.fst |>.nodup_iff.mpr distinct)
        (insertField_ordered order)
      exact ⟨perm.trans (put.trans moved.symm), ordered⟩
  obtain ⟨perm, order⟩ := all [] distinct .nil
  exact ⟨_, rfl, perm, order⟩

/-- Fields in whatever order make up the object that has them in order. -/
theorem ofFields_of_perm {listed fields : List (String × Value)} (same : listed.Perm fields)
    (order : fields.Pairwise fun field other => field.1 < other.1) :
    ofFields listed = .object fields := by
  have apart : (fields.map Prod.fst).Nodup :=
    List.pairwise_map.mpr (order.imp fun below => String.ne_of_lt below)
  obtain ⟨others, made, otherSame, otherOrder⟩ :=
    exists_ofFields ((same.map Prod.fst).nodup_iff.mpr apart)
  -- There is only one order for the same fields.
  rw [made, (otherSame.trans same).eq_of_pairwise ?_ otherOrder order]
  intro field other _ _ below above
  exact absurd (String.lt_trans below above) (String.lt_irrefl _)

/-- An object of fields with ordered values is ordered, whatever the order they are given in. -/
theorem ordered_ofFields {listed : List (String × Value)}
    (each : ∀ field ∈ listed, field.2.Ordered) : (ofFields listed).Ordered := by
  -- What is made of the fields up to some place is ordered, and the next one is put in.
  have all : ∀ before, Ordered (.object before) →
      Ordered (.object
        (listed.foldl (fun ordered field => insertField field.1 field.2 ordered) before)) := by
    induction listed with
    | nil => exact fun _ ordered => ordered
    | cons field listed ih =>
      obtain ⟨first, others⟩ := List.forall_mem_cons.mp each
      intro before ordered
      obtain ⟨order, inner⟩ := ordered_object.mp ordered
      refine ih others _ (ordered_object.mpr ⟨insertField_ordered order, fun other member => ?_⟩)
      rcases mem_insertField member with rfl | member
      · exact first
      · exact inner other member
  exact all [] (ordered_object.mpr ⟨.nil, List.forall_mem_nil _⟩)

/-- What is related place by place is related in another way that holds for every member. -/
theorem forall₂_of_mem {α β : Type} {related other : α → β → Prop} {items : List α}
    {images : List β} (each : List.Forall₂ related items images)
    (next : ∀ item, ∀ image ∈ images, related item image → other item image) :
    List.Forall₂ other items images := by
  obtain ⟨length, places⟩ := List.forall₂_iff_zip.mp each
  refine List.forall₂_iff_zip.mpr ⟨length, fun place => ?_⟩
  exact next _ _ (List.of_mem_zip place).2 (places place)

/-- Every value lists itself. -/
theorem lists_self (value : Value) : value.Lists value := by
  induction value with
  | null => exact .null
  | bool value => exact .bool value
  | int value => exact .int value
  | float value => exact .float value
  | string text => exact .string text
  | array items ih => exact .array (List.forall₂_same.mpr ih)
  | object fields ih =>
    refine .object (.refl fields) rfl (List.forall₂_same.mpr ?_)
    rintro _ member
    obtain ⟨field, inside, rfl⟩ := List.mem_map.mp member
    exact ih field inside

/-- The fields of a listing are those of the object in some order, with listings of their values. -/
theorem exists_of_lists_object {written fields : List (String × Value)}
    (lists : Lists (.object written) (.object fields)) :
    ∃ others, List.Forall₂ (fun field other => field.1 = other.1 ∧ field.2.Lists other.2)
      written others ∧ others.Perm fields := by
  cases lists with
  | @object _ listed _ same keys values =>
    refine List.perm_comp_forall₂ same ?_
    clear same
    -- Keys and values are related place by place.
    induction fields generalizing listed with
    | nil =>
      rw [List.map_eq_nil_iff.mp keys]
      exact .nil
    | cons field fields ih =>
      cases listed with
      | nil => cases keys
      | cons first listed =>
        obtain ⟨key, keys⟩ := List.cons.inj keys
        obtain ⟨value, values⟩ := List.forall₂_cons.mp values
        exact .cons ⟨key, value⟩ (ih keys values)

end Placeholder.Value

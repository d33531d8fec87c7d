import Placeholder.Proofs.Yaml.Shape
import Placeholder.Proofs.Yaml.Tags

/-! Data can be written unless a tag stands right behind a tag, which no text can hold. -/

namespace Placeholder.Yaml

namespace Datum

/-- A step that may fail is followed by one that may fail on its own account. -/
theorem isSome_bind_iff {found : Option Pen} {next : Pen → Option Pen} {allowed : Prop}
    (each : ∀ pen, (next pen).isSome = true ↔ allowed) :
    (found >>= next).isSome = true ↔ found.isSome = true ∧ allowed := by
  cases found with
  | none => simp
  | some pen => simp [each]

/-- Where a datum stands does not matter to whether it is written, but only what is within it. -/
def Settled (datum : Datum) : Prop :=
  ∀ indent inMapping simpleKey pen,
    (write? indent inMapping simpleKey datum pen).isSome = true ↔ datum.Writable

/-- Items are written when each of them is. -/
theorem writeItems?_isSome_iff {items : List Datum} (each : ∀ item ∈ items, item.Settled)
    (column : Nat) (pen : Pen) :
    (writeItems? column items pen).isSome = true ↔ ∀ item ∈ items, item.Writable := by
  -- The items behind are written with the pen that the first one leaves, whichever it is.
  induction items generalizing pen with
  | nil => simp [writeItems?]
  | cons item items ih =>
    obtain ⟨first, others⟩ := List.forall_mem_cons.mp each
    rw [writeItems?, isSome_bind_iff (ih others), first, List.forall_mem_cons]

/-- Entries are written when each key and each value is. -/
theorem writeEntries?_isSome_iff {entries : List (Datum × Datum)}
    (each : ∀ entry ∈ entries, entry.1.Settled ∧ entry.2.Settled) (column : Nat) (pen : Pen) :
    (writeEntries? column entries pen).isSome = true ↔
      ∀ entry ∈ entries, entry.1.Writable ∧ entry.2.Writable := by
  induction entries generalizing pen with
  | nil => simp [writeEntries?]
  | cons entry entries ih =>
    obtain ⟨key, value⟩ := entry
    obtain ⟨⟨ofKey, ofValue⟩, others⟩ := List.forall_mem_cons.mp each
    have behind : ∀ pen, (write? (some column) true false value pen >>=
        writeEntries? column entries).isSome = true ↔
          value.Writable ∧ ∀ entry ∈ entries, entry.1.Writable ∧ entry.2.Writable := by
      intro pen
      rw [isSome_bind_iff (ih others), ofValue]
    rw [List.forall_mem_cons, and_assoc, ← ofKey (some column) true key.isSimpleKey _,
      writeEntries?]
    exact isSome_bind_iff fun pen => behind _

/-- A datum is written from every place when it is writable, and else from none. -/
theorem settled (datum : Datum) : datum.Settled := by
  induction datum with
  | null | bool | int | float | string =>
    exact fun _ _ _ _ => iff_of_true rfl (ordinary_of_scalar? rfl).writable
  | sequence items ih =>
    intro indent inMapping simpleKey pen
    cases items with
    | nil => exact iff_of_true rfl (writable_sequence.mpr (List.forall_mem_nil _))
    | cons item items =>
      simp only [write?, writable_sequence]
      exact writeItems?_isSome_iff ih _ pen
  | mapping entries ih =>
    intro indent inMapping simpleKey pen
    cases entries with
    | nil => exact iff_of_true rfl (writable_mapping.mpr (List.forall_mem_nil _))
    | cons entry entries =>
      simp only [write?, writable_mapping]
      exact writeEntries?_isSome_iff ih _ pen
  | tagged name datum ih =>
    intro indent inMapping simpleKey pen
    rw [write?, writable_tagged]
    split
    · rename_i second
      simp [second]
    · rename_i single
      rw [ih]
      simp [single]

/-- A datum has a text exactly when it is writable. -/
theorem toText?_isSome_iff {datum : Datum} :
    datum.toText?.isSome = true ↔ datum.Writable := by
  rw [← settled datum none false false {}, toText?]
  cases write? none false false datum {} with
  | none => rfl
  | some pen => rfl

/-- What is within an untagged datum is untagged. -/
theorem untagged_within {part datum : Datum} (inside : Within part datum)
    (untagged : datum.untagged = true) : part.untagged = true := by
  induction inside with
  | whole => exact untagged
  | item member _ ih =>
    rw [untagged_sequence, List.all_eq_true] at untagged
    exact ih (untagged _ member)
  | key member _ ih =>
    rw [untagged_mapping, List.all_eq_true] at untagged
    exact ih (Bool.and_eq_true_iff.mp (untagged _ member)).1
  | value member _ ih =>
    rw [untagged_mapping, List.all_eq_true] at untagged
    exact ih (Bool.and_eq_true_iff.mp (untagged _ member)).2
  | tagged _ _ => cases untagged

/-- An untagged datum is writable. -/
theorem writable_of_untagged {datum : Datum} (untagged : datum.untagged = true) :
    datum.Writable := by
  intro name inner inside
  cases untagged_within inside untagged

end Datum

namespace Document

open Resolve

/-- A datum is still writable under a name when it had no tag before. -/
theorem always_named (ownTags : Bool) (tag : Option Tag) {datum : Datum}
    (single : datum.isTagged = false) (writable : datum.Writable) :
    (named ownTags tag datum).Always Datum.Writable := by
  unfold named
  split
  · split
    · exact always_pure (Datum.writable_tagged.mpr ⟨single, writable⟩)
    · exact always_failure
  · exact always_pure writable

/-- A node means a writable datum when its parts do. -/
theorem always_meaning (ownTags : Bool) {part : Option (Node → Resolve Datum)}
    (each : ∀ read ∈ part, ∀ node, (read node).Always Datum.Writable) (found : Node) :
    (meaning ownTags part found).Always Datum.Writable := by
  match found with
  | .alias _ => exact always_failure
  | .scalar tag style text =>
    have own : Always (liftM (Scalar.meaning? tag style text) : Resolve Datum)
        fun datum => datum.untagged = true := always_lift fun _ => untagged_of_scalar
    refine own.bind fun datum untagged => ?_
    refine always_named ownTags tag ?_ (Datum.writable_of_untagged untagged)
    -- A tag of its own would have been seen.
    cases datum with
    | tagged => cases untagged
    | _ => rfl
  | .sequence tag items =>
    cases part with
    | none => exact always_failure
    | some read =>
      refine (always_mapM (each read rfl) items).bind fun data writable => ?_
      exact always_named ownTags tag rfl (Datum.writable_sequence.mpr writable)
  | .mapping tag entries =>
    cases part with
    | none => exact always_failure
    | some read =>
      refine (always_mapM (fun parts => ?_) entries).bind fun data writable =>
        always_named ownTags tag rfl (Datum.writable_mapping.mpr writable)
      exact (each read rfl parts.1).bind fun key keyWritable =>
        (each read rfl parts.2).bind fun value valueWritable =>
          always_pure ⟨keyWritable, valueWritable⟩

/-- Nodes are read as writable data, since a node has one tag at most. -/
theorem always_datum (document : Document) (ownTags : Bool) (depth : Nat) (node : Node) :
    (document.datum ownTags depth node).Always Datum.Writable := by
  -- The parts of a node are read within a depth that is one less.
  induction depth generalizing node with
  | zero =>
    rw [datum_eq]
    exact (always_true _).bind fun found _ => always_meaning ownTags (by rintro _ ⟨⟩) found
  | succ depth ih =>
    rw [datum_eq]
    refine (always_true _).bind fun found _ => always_meaning ownTags ?_ found
    rintro read ⟨rfl⟩
    exact ih

end Document

/-- The datum of a text can be written. -/
theorem Datum.writable_of_ofText? {text : String} {datum : Datum}
    (read : Datum.ofText? text = some datum) : datum.Writable := by
  simp only [Datum.ofText?, Option.bind_eq_bind, Option.bind_eq_some_iff] at read
  obtain ⟨document, -, other, meant, kept⟩ := read
  split at kept
  · cases kept
    unfold Document.read? at meant
    split at meant
    · cases meant
      exact Datum.writable_of_untagged rfl
    · obtain ⟨outcome, found, rfl⟩ := Option.map_eq_some_iff.mp meant
      exact document.always_datum true depthLimit _ _ _ found
  · cases kept

end Placeholder.Yaml

import Placeholder.Proofs.Yaml.Resolving

/-! Without own tags the same data are read, but for those that an own tag is in. -/

namespace Placeholder.Yaml

namespace Datum

mutual

/-- Whether no own tag is in a datum, neither on a value nor on a key. -/
def untagged : Datum → Bool
  | .sequence items => itemsUntagged items
  | .mapping entries => entriesUntagged entries
  | .tagged _ _ => false
  | _ => true

/-- Whether no own tag is in any item. -/
def itemsUntagged : List Datum → Bool
  | [] => true
  | item :: rest => item.untagged && itemsUntagged rest

/-- Whether no own tag is in any key or value. -/
def entriesUntagged : List (Datum × Datum) → Bool
  | [] => true
  | (key, value) :: rest => (key.untagged && value.untagged) && entriesUntagged rest

end

/-- A sequence is untagged when all its items are. -/
@[simp] theorem untagged_sequence (items : List Datum) :
    (sequence items).untagged = items.all untagged := by
  rw [untagged]
  induction items with
  | nil => rfl
  | cons item rest ih => rw [itemsUntagged, ih, List.all_cons]

/-- A mapping is untagged when all its keys and values are. -/
@[simp] theorem untagged_mapping (entries : List (Datum × Datum)) :
    (mapping entries).untagged =
      entries.all fun entry => entry.1.untagged && entry.2.untagged := by
  rw [untagged]
  induction entries with
  | nil => rfl
  | cons entry rest ih => rw [entriesUntagged, ih, List.all_cons]

end Datum

namespace Document

open Resolve

/-- The entry of a key and a value that are read one after the other. -/
def entry (read : Node → Resolve Datum) (parts : Node × Node) : Resolve (Datum × Datum) := do
  let key ← read parts.1
  return (key, ← read parts.2)

/-- What a node that stands for itself means, when its parts are read, if they may be. -/
def meaning (ownTags : Bool) (part : Option (Node → Resolve Datum)) : Node → Resolve Datum
  | .alias _ => failure
  | .scalar tag style text => do named ownTags tag (← (Scalar.meaning? tag style text : Option _))
  | .sequence tag items =>
    match part with
    | none => failure
    | some read => do named ownTags tag (.sequence (← items.mapM read))
  | .mapping tag entries =>
    match part with
    | none => failure
    | some read => do named ownTags tag (.mapping (← entries.mapM (entry read)))

/-- The parts of a node are read within a depth that is one less. -/
def part? (document : Document) (ownTags : Bool) : Nat → Option (Node → Resolve Datum)
  | 0 => none
  | depth + 1 => some (document.datum ownTags depth)

/-- A node means what the node means that it stands for. -/
theorem datum_eq (document : Document) (ownTags : Bool) (depth : Nat) (node : Node) :
    document.datum ownTags depth node =
      document.target node >>= meaning ownTags (document.part? ownTags depth) := by
  cases depth with
  | zero =>
    rw [datum]
    congr
  | succ depth =>
    rw [datum]
    congr

/-- A sequence without a tag means its items in turn. -/
theorem datum_sequence (document : Document) (ownTags : Bool) (depth : Nat) (items : List Node) :
    document.datum ownTags (depth + 1) (.sequence none items) =
      .sequence <$> items.mapM (document.datum ownTags depth) := by
  rw [datum_eq, ← bind_pure_comp]
  rfl

/-- A node that does not stand for another one. -/
def standing? : Node → Option Node
  | .alias _ => none
  | node => some node

/-- An alias is followed by one jump, and the jumps that are left do not change where it leads. -/
theorem run_target_alias (document : Document) (anchor jumps : Nat) :
    (document.target (.alias anchor)).run (jumps + 1) =
      ((document.anchored.lookup anchor).bind standing?).map (·, jumps) := by
  cases known : document.anchored.lookup anchor with
  | none =>
    simp only [target, known]
    rfl
  | some node =>
    simp only [target, known]
    cases node with
    | _ => rfl

/-- The node that a node stands for is found steadily. -/
theorem steady_target (document : Document) (node : Node) : (document.target node).Steady := by
  match node with
  | .alias anchor =>
    intro allowed value left had
    cases allowed with
    | zero => exact nomatch had
    | succ allowed =>
      rw [run_target_alias, Option.map_eq_some_iff] at had
      obtain ⟨node, meant, same⟩ := had
      cases same
      refine ⟨1, Nat.add_comm _ _, fun others => ?_⟩
      rw [Nat.add_comm, run_target_alias, meant]
      rfl
  | .scalar _ _ _ | .sequence _ _ | .mapping _ _ => exact steady_pure _

/-- A name on a datum needs no jump. -/
theorem steady_named (ownTags : Bool) (tag : Option Tag) (datum : Datum) :
    (named ownTags tag datum).Steady := by
  unfold named
  split
  · split
    · exact steady_pure _
    · exact steady_failure
  · exact steady_pure _

/-- A node is read steadily when its parts are. -/
theorem steady_meaning (ownTags : Bool) {part : Option (Node → Resolve Datum)}
    (steady : ∀ read ∈ part, ∀ node, (read node).Steady) (found : Node) :
    (meaning ownTags part found).Steady := by
  match found with
  | .alias _ => exact steady_failure
  | .scalar _ _ _ => exact (steady_lift _).bind fun _ => steady_named _ _ _
  | .sequence _ items =>
    cases part with
    | none => exact steady_failure
    | some read => exact (steady_mapM (steady read rfl) items).bind fun _ => steady_named _ _ _
  | .mapping _ entries =>
    cases part with
    | none => exact steady_failure
    | some read =>
      refine (steady_mapM (fun parts => ?_) entries).bind fun _ => steady_named _ _ _
      exact (steady read rfl parts.1).bind fun _ => (steady read rfl parts.2).bind fun _ =>
        steady_pure _

/-- Nodes are read steadily. -/
theorem steady_datum (document : Document) (ownTags : Bool) (depth : Nat) (node : Node) :
    (document.datum ownTags depth node).Steady := by
  induction depth generalizing node with
  | zero =>
    rw [datum_eq]
    exact (steady_target document node).bind (steady_meaning ownTags (by rintro _ ⟨⟩))
  | succ depth ih =>
    rw [datum_eq]
    refine (steady_target document node).bind (steady_meaning ownTags ?_)
    rintro read ⟨rfl⟩
    exact ih

/-- A name is kept when it is no own one and the datum is kept. -/
theorem sifts_named (tag : Option Tag) {datum : Datum} (untagged : datum.untagged = true) :
    (named false tag datum).Sifts (named true tag datum) Datum.untagged := by
  unfold named
  split
  · exact sifts_drop rfl
  · exact sifts_pure untagged

/-- A datum with an own tag inside is not kept, whatever its own name. -/
theorem sifts_named_tagged (tag : Option Tag) {datum : Datum} (tagged : datum.untagged = false) :
    Sifts failure (named true tag datum) Datum.untagged := by
  unfold named
  split
  · exact sifts_drop rfl
  · exact sifts_drop tagged

/-- Entries are kept when their keys and values are. -/
theorem sifts_entry {strict whole : Node → Resolve Datum}
    (each : ∀ node, (strict node).Sifts (whole node) Datum.untagged) (parts : Node × Node) :
    (entry strict parts).Sifts (entry whole parts)
      fun entry => entry.1.untagged && entry.2.untagged := by
  refine (each parts.1).bind (fun key keeps => ?_) fun key drops => ?_
  · refine (each parts.2).bind (fun value keepsValue => sifts_pure ?_) fun value dropsValue =>
      sifts_drop ?_
    · rw [keeps, keepsValue]
      rfl
    · rw [keeps, dropsValue]
      rfl
  · refine sifts_failure_bind fun value => sifts_drop ?_
    rw [drops]
    rfl

/-- The meaning of a plain text has no tag. -/
theorem untagged_of_plain {text : String} {datum : Datum}
    (meant : Scalar.plain? text = some datum) : datum.untagged = true := by
  unfold Scalar.plain? at meant
  split at meant
  · cases meant
    rfl
  · split at meant
    · cases meant
      rfl
    · split at meant
      · split at meant
        · cases meant
          rfl
        · exact nomatch meant
      · split at meant <;> (cases meant; rfl)

/-- The meaning of a scalar has no tag but the one that the scalar has. -/
theorem untagged_of_scalar {tag : Option Tag} {style : Style} {text : String} {datum : Datum}
    (meant : Scalar.meaning? tag style text = some datum) : datum.untagged = true := by
  have kind : ∀ {α : Type} {make : α → Datum} {found : Option α},
      (∀ value, (make value).untagged = true) → found.map make = some datum →
        datum.untagged = true := by
    rintro _ _ found untagged meant
    obtain ⟨value, -, rfl⟩ := Option.map_eq_some_iff.mp meant
    exact untagged value
  unfold Scalar.meaning? at meant
  split at meant
  · exact kind (fun _ => rfl) meant
  · exact kind (fun _ => rfl) meant
  · exact kind (fun _ => rfl) meant
  · split at meant
    · cases meant
      rfl
    · exact nomatch meant
  · cases meant
    rfl
  all_goals
    split at meant
    · exact untagged_of_plain meant
    · cases meant
      rfl

/-- A node is kept when its parts are and no own tag is on it. -/
theorem sifts_meaning {strict whole : Option (Node → Resolve Datum)}
    (each : Option.Rel (fun strict whole => ∀ node, (strict node).Sifts (whole node) Datum.untagged)
      strict whole) (found : Node) :
    (meaning false strict found).Sifts (meaning true whole found) Datum.untagged := by
  match found with
  | .alias _ => exact sifts_failure
  | .scalar tag style text =>
    cases meant : Scalar.meaning? tag style text with
    | none =>
      rw [meaning, meaning, meant]
      exact sifts_failure
    | some datum =>
      rw [meaning, meaning, meant]
      exact sifts_named tag (untagged_of_scalar meant)
  | .sequence tag items =>
    cases each with
    | none => exact sifts_failure
    | some each =>
      refine (sifts_mapM each items).bind (fun data keeps => sifts_named tag ?_) fun data drops =>
        sifts_named_tagged tag ?_
      · rw [Datum.untagged_sequence, keeps]
      · rw [Datum.untagged_sequence, drops]
  | .mapping tag entries =>
    cases each with
    | none => exact sifts_failure
    | some each =>
      refine (sifts_mapM (sifts_entry each) entries).bind (fun data keeps => sifts_named tag ?_)
        fun data drops => sifts_named_tagged tag ?_
      · rw [Datum.untagged_mapping, keeps]
      · rw [Datum.untagged_mapping, drops]

/-- Without own tags a node is read as the same datum, unless one is in it. -/
theorem sifts_datum (document : Document) (depth : Nat) (node : Node) :
    (document.datum false depth node).Sifts (document.datum true depth node) Datum.untagged := by
  -- The node that is meant is the same, and its parts are read within a depth that is one less.
  induction depth generalizing node with
  | zero =>
    rw [datum_eq, datum_eq]
    exact sifts_behind (sifts_meaning .none)
  | succ depth ih =>
    rw [datum_eq, datum_eq]
    exact sifts_behind (sifts_meaning (.some ih))

/-- The root of a document does not matter to what its nodes mean. -/
theorem datum_root (anchored : List (Nat × Node)) (root other : Option Node) (ownTags : Bool)
    (depth : Nat) :
    (⟨root, anchored⟩ : Document).datum ownTags depth =
      (⟨other, anchored⟩ : Document).datum ownTags depth := by
  have target : (⟨root, anchored⟩ : Document).target = (⟨other, anchored⟩ : Document).target := rfl
  induction depth with
  | zero =>
    funext node
    rw [datum_eq, datum_eq, target]
    rfl
  | succ depth ih =>
    funext node
    rw [datum_eq, datum_eq, target, part?, part?, ih]

end Document

end Placeholder.Yaml

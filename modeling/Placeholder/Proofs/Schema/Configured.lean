import Placeholder.Generator.Declared
import Placeholder.Proofs.Random.Results
import Placeholder.Proofs.Yaml.Shape
import Placeholder.Proofs.Yaml.Tags
import Placeholder.Schema

/-! A configured datum loads as it would be read on its own, unless an own tag is in it. -/

namespace Placeholder

open Yaml

namespace Yaml.Node

/-- A plain scalar without a tag. -/
def plain (text : String) : Node :=
  .scalar none .plain text

/-- A node is the value of the only field in a configuration of a kind. -/
inductive ValueIn (value : Node) (kind field : String) : Node → Prop where
  | typeFirst :
    ValueIn value kind field (.mapping none [(plain "type", plain kind), (plain field, value)])
  | typeLast :
    ValueIn value kind field (.mapping none [(plain field, value), (plain "type", plain kind)])
  | listed : ValueIn value kind field (.sequence none [plain kind, value])

/-- A configuration is larger than its value. -/
theorem ValueIn.size_le {kind field : String} {value configuration : Node}
    (inside : value.ValueIn kind field configuration) :
    value.size ≤ configuration.size := by
  cases inside with
  | typeFirst =>
    simp only [size, entriesSize]
    omega
  | typeLast =>
    simp only [size, entriesSize]
    omega
  | listed =>
    simp only [size, itemsSize]
    omega

/-- A schema that declares a configuration under a name. -/
def declaring (name : String) (configuration : Node) : Node :=
  .mapping none [(plain "generators", .sequence none
    [.mapping none [(plain "name", plain name), (plain "generator", configuration)]])]

/-- A schema is larger than the configuration that it declares. -/
theorem size_le_declaring (name : String) (configuration : Node) :
    configuration.size ≤ (declaring name configuration).size := by
  simp only [declaring, size, itemsSize, entriesSize]
  omega

end Yaml.Node

/-- The recipe of a root node, among anchored nodes and within a depth. -/
def Recipe.ofRoot? (anchored : List (Nat × Node)) (depth : Nat) (root : Node) : Option Recipe :=
  let document : Document := ⟨some root, anchored⟩
  document.read? (document.recipe depth) none

/-- The schema of a root node, among anchored nodes and within a depth. -/
def Schema.ofRoot? (anchored : List (Nat × Node)) (depth : Nat) (root : Node) : Option Schema :=
  let document : Document := ⟨some root, anchored⟩
  document.read? (document.schema depth) none

/-- The datum of a root node, among anchored nodes and within a depth. -/
def Yaml.Datum.ofRoot? (anchored : List (Nat × Node)) (depth : Nat) (root : Node) : Option Datum :=
  let document : Document := ⟨some root, anchored⟩
  (document.read? (document.datum true depth) none).filter Datum.keysDistinct

/-- A kind of recipe has a single field, whose name is a text and not that of the type. -/
structure Recipe.SingleField (kind field : String) : Prop where
  text : Scalar.plain? field = some (.string field)
  other : field ≠ "type"
  values : ∀ datum, ofEntries? kind [(.string field, datum)] = ofValues? kind [datum]

/-- What always comes out is a single field. -/
theorem Recipe.singleField_static : SingleField "static" "value" :=
  ⟨rfl, by decide, fun _ => rfl⟩

/-- The choices are a single field. -/
theorem Recipe.singleField_oneOf : SingleField "one_of" "values" :=
  ⟨rfl, by decide, fun _ => rfl⟩

namespace Yaml

namespace Document

open Resolve

/-- An entry of a configuration, which is its type or a field. -/
def setting (document : Document) (depth : Nat) (parts : Node × Node) :
    Resolve (String ⊕ (Datum × Datum)) := do
  let key ← document.datum false depth parts.1
  match key with
  | .string "type" => return .inl (← document.text parts.2)
  | key => return .inr (key, ← document.datum false depth parts.2)

/-- A mapping is a recipe by its only type and its fields. -/
theorem recipe_mapping (document : Document) (depth : Nat) (tag : Option Tag)
    (entries : List (Node × Node)) :
    document.recipe (depth + 1) (.mapping tag entries) = (do
      let read ← entries.mapM (document.setting depth)
      match recipe.ownTag tag, read.filterMap Sum.getLeft? with
      | false, [kind] => (Recipe.ofEntries? kind (read.filterMap Sum.getRight?) : Option _)
      | _, _ => failure) := by
  rw [recipe]
  rfl

/-- A text that looks like nothing else is read as it is. -/
theorem datum_plain (document : Document) (depth : Nat) {text : String}
    (meant : Scalar.plain? text = some (.string text)) :
    document.datum false depth (.plain text) = pure (.string text) := by
  rw [datum_eq]
  show meaning false (document.part? false depth) (.plain text) = _
  rw [Node.plain, meaning, Scalar.meaning?, if_pos rfl, meant]
  rfl

/-- The type of a configuration is a text. -/
theorem setting_type (document : Document) (depth : Nat) (kind : String) :
    document.setting depth (.plain "type", .plain kind) = pure (.inl kind) := by
  rw [setting, datum_plain document depth rfl]
  rfl

/-- A field of a configuration has a datum for its value. -/
theorem setting_field (document : Document) (depth : Nat) {kind field : String} (value : Node)
    (single : Recipe.SingleField kind field) :
    document.setting depth (.plain field, value) =
      (fun datum => .inr (.string field, datum)) <$> document.datum false depth value := by
  rw [setting, datum_plain document depth single.text, pure_bind]
  split
  · rename_i same
    cases same
    exact absurd rfl single.other
  · rw [← bind_pure_comp]

/-- A configuration is read by reading the value of its field without own tags. -/
theorem recipe_configuration (document : Document) (depth : Nat) {kind field : String}
    {value configuration : Node} (single : Recipe.SingleField kind field)
    (inside : value.ValueIn kind field configuration) :
    document.recipe (depth + 1) configuration =
      document.datum false depth value >>= fun datum =>
        (Recipe.ofValues? kind [datum] : Option _) := by
  cases inside with
  | typeFirst =>
    simp only [recipe_mapping, List.mapM_cons, List.mapM_nil, setting_type,
      setting_field _ _ _ single, pure_bind, bind_assoc, bind_map_left, ← single.values]
    rfl
  | typeLast =>
    simp only [recipe_mapping, List.mapM_cons, List.mapM_nil, setting_type,
      setting_field _ _ _ single, pure_bind, bind_assoc, bind_map_left, ← single.values]
    rfl
  | listed =>
    have listed : document.recipe (depth + 1) (.sequence none [.plain kind, value]) =
        [value].mapM (document.datum false depth) >>= fun data =>
          (Recipe.ofValues? kind data : Option _) := by
      rw [recipe]
      rfl
    simp only [listed, List.mapM_cons, List.mapM_nil, pure_bind, bind_assoc]

/-- A declaration is read by reading its configuration. -/
theorem declaration_named (document : Document) (depth : Nat) (name : String)
    (configuration : Node) :
    document.declaration (depth + 1)
        (.mapping none [(.plain "name", .plain name), (.plain "generator", configuration)]) =
      (fun recipe => ⟨name, recipe⟩) <$> document.recipe depth configuration := by
  rw [← bind_pure_comp]
  rfl

/-- A schema of one declaration is read by reading its configuration. -/
theorem schema_declaring (document : Document) (depth : Nat) (name : String)
    (configuration : Node) :
    document.schema (depth + 3) (.declaring name configuration) =
      (fun recipe => ⟨1, [⟨name, recipe⟩]⟩) <$> document.recipe depth configuration := by
  have declared : document.schema (depth + 3) (.declaring name configuration) =
      [Node.mapping none
        [(.plain "name", .plain name), (.plain "generator", configuration)]].mapM
        (document.declaration (depth + 1)) >>= fun declarations => pure ⟨1, declarations⟩ := rfl
  rw [declared]
  simp only [List.mapM_cons, List.mapM_nil, declaration_named, ← bind_pure_comp, pure_bind,
    bind_assoc]

end Document

section Alone

variable {anchored : List (Nat × Node)} {depth : Nat} {node : Node} {datum : Datum}

/-- What is read on its own has distinct keys. -/
theorem Datum.keysDistinct_of_ofRoot? (found : ofRoot? anchored depth node = some datum) :
    datum.keysDistinct = true :=
  (Option.filter_eq_some_iff.mp found).2

/-- What is read on its own needs no more than its share of jumps in any document. -/
theorem Datum.reads_of_ofRoot? (found : ofRoot? anchored depth node = some datum)
    (root : Option Node) :
    ∃ jumps ≤ 100 * node.size,
      ((⟨root, anchored⟩ : Document).datum true depth node).Reads datum jumps := by
  obtain ⟨read, -⟩ := Option.filter_eq_some_iff.mp found
  obtain ⟨⟨read, left⟩, run, rfl⟩ := Option.map_eq_some_iff.mp read
  obtain ⟨jumps, spent, reads⟩ := Document.steady_datum _ _ _ _ _ _ _ run
  refine ⟨jumps, ?_, ?_⟩
  · have limit : Document.jumpLimit ⟨some node, anchored⟩ = 100 * node.size := rfl
    omega
  · rw [Document.datum_root anchored root (some node)]
    exact reads

/-- Inside of a root a node is read without own tags as on its own, if no own tag is in it. -/
theorem Datum.run'_of_ofRoot? (found : ofRoot? anchored depth node = some datum) {root : Node}
    (room : node.size ≤ root.size) :
    ((⟨some root, anchored⟩ : Document).datum false depth node).run'
        (Document.jumpLimit ⟨some root, anchored⟩) =
      if datum.untagged then some datum else none := by
  -- The root is at least as large as the node, and so are the jumps that it allows.
  obtain ⟨jumps, cheap, reads⟩ := reads_of_ofRoot? found (some root)
  refine (Document.sifts_datum _ depth node).run'_of_reads reads (Nat.le_trans cheap ?_)
  exact Nat.mul_le_mul_left 100 room

end Alone

/-- The size of items is the sum of their sizes. -/
theorem Node.itemsSize_eq (items : List Node) : itemsSize items = (items.map size).sum := by
  induction items with
  | nil => rfl
  | cons item rest ih => rw [itemsSize, ih, List.map_cons, List.sum_cons]

section Items

variable {anchored : List (Nat × Node)} {depth : Nat} {nodes : List Node} {data : List Datum}

/-- Data that are read on their own have distinct keys. -/
theorem Datum.all_keysDistinct
    (each : List.Forall₂ (fun node datum => ofRoot? anchored depth node = some datum) nodes data) :
    data.all keysDistinct = true := by
  induction each with
  | nil => rfl
  | cons found others ih =>
    rw [List.all_cons, keysDistinct_of_ofRoot? found, ih]
    rfl

/-- Nodes that are read on their own are read as the items of a sequence. -/
theorem Datum.ofRoot?_sequence
    (each : List.Forall₂ (fun node datum => ofRoot? anchored depth node = some datum) nodes data) :
    ofRoot? anchored (depth + 1) (.sequence none nodes) = some (.sequence data) := by
  refine Option.filter_eq_some_iff.mpr ⟨?_, ?_⟩
  · -- The share of the sequence covers the shares of its items.
    have shares := each.imp fun _ _ found => reads_of_ofRoot? found (some (.sequence none nodes))
    obtain ⟨jumps, cheap, reads⟩ := Resolve.reads_mapM shares
    have enough : jumps ≤ Document.jumpLimit ⟨some (.sequence none nodes), anchored⟩ := by
      refine Nat.le_trans cheap ?_
      show _ ≤ 100 * (Node.sequence none nodes).size
      rw [Node.size, Node.itemsSize_eq]
      omega
    show (Document.datum _ true (depth + 1) _).run' _ = _
    rw [Document.datum_sequence, Resolve.run'_map, reads.run' enough]
    rfl
  · rw [keysDistinct_sequence]
    exact all_keysDistinct each

end Items

end Yaml

section Loading

variable {anchored : List (Nat × Node)} {depth : Nat} {node configuration : Node} {datum : Datum}
variable {nodes : List Node} {data : List Datum} {kind field : String}

/-- A configuration loads as the recipe of its value, if that is untagged. -/
theorem Recipe.ofRoot?_configuration (found : Datum.ofRoot? anchored depth node = some datum)
    (single : SingleField kind field) (inside : node.ValueIn kind field configuration) :
    ofRoot? anchored (depth + 1) configuration =
      if datum.untagged then ofValues? kind [datum] else none := by
  show (Document.recipe _ (depth + 1) _).run' _ = _
  rw [Document.recipe_configuration _ _ single inside, Resolve.run'_bind_lift,
    Datum.run'_of_ofRoot? found inside.size_le]
  split
  · rfl
  · rfl

/-- A schema of one configuration loads when the configuration does. -/
theorem Schema.ofRoot?_declaring (found : Datum.ofRoot? anchored depth node = some datum)
    (single : Recipe.SingleField kind field)
    (inside : node.ValueIn kind field configuration) (name : String) :
    ofRoot? anchored (depth + 4) (.declaring name configuration) =
      (Recipe.ofRoot? anchored (depth + 1) configuration).map
        fun recipe => ⟨1, [⟨name, recipe⟩]⟩ := by
  have room := Nat.le_trans inside.size_le (Node.size_le_declaring name configuration)
  rw [Recipe.ofRoot?_configuration found single inside]
  show (Document.schema _ (depth + 1 + 3) _).run' _ = _
  rw [Document.schema_declaring, Resolve.run'_map,
    Document.recipe_configuration _ _ single inside, Resolve.run'_bind_lift,
    Datum.run'_of_ofRoot? found room]
  split
  · rfl
  · rfl

/-- Data with distinct keys are taken for choices as they are. -/
theorem Recipe.mapM_datum? (distinct : data.all Datum.keysDistinct = true) :
    data.mapM datum? = some data := by
  induction data with
  | nil => rfl
  | cons datum rest ih =>
    rw [List.all_cons, Bool.and_eq_true] at distinct
    rw [List.mapM_cons, datum?, if_pos distinct.1, ih distinct.2]
    rfl

/-- A static configuration loads when its value is untagged. -/
theorem Recipe.ofRoot?_static (found : Datum.ofRoot? anchored depth node = some datum)
    (inside : node.ValueIn "static" "value" configuration) :
    ofRoot? anchored (depth + 1) configuration =
      if datum.untagged then some (.static datum) else none := by
  rw [ofRoot?_configuration found singleField_static inside]
  show (if _ then (datum? datum).map Recipe.static else none) = _
  rw [datum?, if_pos (Datum.keysDistinct_of_ofRoot? found)]
  rfl

/-- A configuration of choices loads when all of them are untagged. -/
theorem Recipe.ofRoot?_oneOf
    (each : List.Forall₂ (fun node datum => Datum.ofRoot? anchored depth node = some datum)
      nodes data)
    (inside : (Node.sequence none nodes).ValueIn "one_of" "values" configuration) :
    ofRoot? anchored (depth + 2) configuration =
      if data.all Datum.untagged then some (.oneOf data) else none := by
  rw [ofRoot?_configuration (Datum.ofRoot?_sequence each) singleField_oneOf inside,
    Datum.untagged_sequence]
  show (if _ then (data.mapM datum?).map Recipe.oneOf else none) = _
  rw [mapM_datum? (Datum.all_keysDistinct each)]
  rfl

/-- A schema with a static configuration loads when the value is untagged. -/
theorem Schema.ofRoot?_static (found : Datum.ofRoot? anchored depth node = some datum)
    (inside : node.ValueIn "static" "value" configuration) (name : String) :
    ofRoot? anchored (depth + 4) (.declaring name configuration) =
      if datum.untagged then some ⟨1, [⟨name, .static datum⟩]⟩ else none := by
  rw [ofRoot?_declaring found Recipe.singleField_static inside,
    Recipe.ofRoot?_static found inside]
  split
  · rfl
  · rfl

/-- A schema with a configuration of choices loads when all of them are untagged. -/
theorem Schema.ofRoot?_oneOf
    (each : List.Forall₂ (fun node datum => Datum.ofRoot? anchored depth node = some datum)
      nodes data)
    (inside : (Node.sequence none nodes).ValueIn "one_of" "values" configuration) (name : String) :
    ofRoot? anchored (depth + 5) (.declaring name configuration) =
      if data.all Datum.untagged then some ⟨1, [⟨name, .oneOf data⟩]⟩ else none := by
  rw [ofRoot?_declaring (Datum.ofRoot?_sequence each) Recipe.singleField_oneOf inside,
    Recipe.ofRoot?_oneOf each inside]
  split
  · rfl
  · rfl

/-- One of the choices comes out, if there are any. -/
theorem Recipe.oneOf_always (choices : data ≠ []) :
    (Recipe.oneOf data).generate.Always (· ∈ data.map Value.ofYaml) := by
  obtain ⟨first, rest, rfl⟩ := List.exists_cons_of_ne_nil choices
  refine Draw.always_bind (Draw.index_lt (Nat.zero_lt_succ _)) fun position within => ?_
  refine Draw.always_pure ?_
  rw [List.getD_eq_getElem?_getD, List.getElem?_eq_getElem within]
  exact List.getElem_mem within

/-- A text is read as the root of its document, within the limit on the depth. -/
theorem ofText?_eq_ofRoot? {text : String} {root : Node}
    (composed : Document.ofText? text = some ⟨some root, anchored⟩) :
    Datum.ofText? text = Datum.ofRoot? anchored depthLimit root ∧
      Recipe.ofText? text = Recipe.ofRoot? anchored depthLimit root ∧
      Schema.ofText? text = Schema.ofRoot? anchored depthLimit root := by
  refine ⟨?_, ?_, ?_⟩
  · rw [Datum.ofText?, composed]
    exact Option.bind_guard _ _
  · rw [Recipe.ofText?, composed]
    rfl
  · rw [Schema.ofText?, composed]
    rfl

end Loading

/--
A configured datum loads as it is read on its own exactly when no own tag is in it.

What comes out is its value, which is its YAML text when it has no other image. Of several choices
all have to be untagged, and one of them comes out. A schema with such a configuration loads when
the configuration does. Each level of a configuration takes one from the depth that is left.
-/
theorem configured_data_load_iff_untagged (anchored : List (Nat × Node)) (depth : Nat) :
    (∀ node datum, Datum.ofRoot? anchored depth node = some datum →
      ∀ configuration, node.ValueIn "static" "value" configuration →
        Recipe.ofRoot? anchored (depth + 1) configuration =
          (if datum.untagged then some (.static datum) else none) ∧
        ∀ name, Schema.ofRoot? anchored (depth + 4) (.declaring name configuration) =
          if datum.untagged then some ⟨1, [⟨name, .static datum⟩]⟩ else none) ∧
    (∀ nodes data,
      List.Forall₂ (fun node datum => Datum.ofRoot? anchored depth node = some datum) nodes data →
      ∀ configuration, (Node.sequence none nodes).ValueIn "one_of" "values" configuration →
        Recipe.ofRoot? anchored (depth + 2) configuration =
          (if data.all Datum.untagged then some (.oneOf data) else none) ∧
        ∀ name, Schema.ofRoot? anchored (depth + 5) (.declaring name configuration) =
          if data.all Datum.untagged then some ⟨1, [⟨name, .oneOf data⟩]⟩ else none) ∧
    (∀ datum source, (Recipe.static datum).generate.run source = (Value.ofYaml datum, source)) ∧
    (∀ data, data ≠ [] → (Recipe.oneOf data).generate.Always (· ∈ data.map Value.ofYaml)) ∧
    ∀ text root, Document.ofText? text = some ⟨some root, anchored⟩ →
      Datum.ofText? text = Datum.ofRoot? anchored depthLimit root ∧
      Recipe.ofText? text = Recipe.ofRoot? anchored depthLimit root ∧
      Schema.ofText? text = Schema.ofRoot? anchored depthLimit root := by
  refine ⟨?_, ?_, fun _ _ => rfl, fun _ => Recipe.oneOf_always, fun _ _ => ofText?_eq_ofRoot?⟩
  · intro node datum found configuration inside
    exact ⟨Recipe.ofRoot?_static found inside, Schema.ofRoot?_static found inside⟩
  · intro nodes data each configuration inside
    exact ⟨Recipe.ofRoot?_oneOf each inside, Schema.ofRoot?_oneOf each inside⟩

/-- A mapping with an unusual key comes out as its text, and a tagged choice does not load. -/
theorem unusual_key_comes_out :
    Recipe.ofRoot? [] 2 (.mapping none [(.plain "type", .plain "static"),
        (.plain "value", .mapping none [(.plain "true", .plain "x")])]) =
      some (.static (.mapping [(.bool true, .string "x")])) ∧
    (Value.ofYaml (.mapping [(.bool true, .string "x")])).string? = some "true: x" ∧
    Recipe.ofRoot? [] 3 (.sequence none [.plain "one_of", .sequence none
        [.mapping none [(.plain "true", .plain "x")], .scalar (some (.own "t")) .plain "x"]]) =
      none := by
  obtain ⟨static, oneOf, -⟩ := configured_data_load_iff_untagged [] 1
  have mapping : Datum.ofRoot? [] 1 (.mapping none [(.plain "true", .plain "x")]) =
      some (.mapping [(.bool true, .string "x")]) := by
    refine Option.filter_eq_some_iff.mpr ⟨?_, by decide +kernel⟩
    simp only [Document.read?, Document.datum, Node.plain, Document.target, pure_bind,
      List.mapM_cons, List.mapM_nil]
    rfl
  have tagged : Datum.ofRoot? [] 1 (.scalar (some (.own "t")) .plain "x") =
      some (.tagged "t" (.string "x")) := by
    refine Option.filter_eq_some_iff.mpr ⟨?_, by decide +kernel⟩
    simp only [Document.read?, Document.datum]
    rfl
  exact ⟨(static _ _ mapping _ .typeFirst).1, by decide +kernel,
    (oneOf _ _ (.cons mapping (.cons tagged .nil)) _ .listed).1⟩

/-- A tagged text has a value on its own, and no configuration or schema with it loads. -/
theorem tagged_text_does_not_load :
    (Datum.ofText? "!t x").map (fun datum => (Value.ofYaml datum).string?) =
      some (some "!t x") ∧
    (Recipe.ofText? "type: static\nvalue: !t x").isNone = true ∧
    (Recipe.ofText? "type: one_of\nvalues: [!t x]").isNone = true ∧
    (Schema.ofText?
      "generators:\n- name: a\n  generator:\n    type: static\n    value: !t x").isNone = true := by
  decide +kernel

end Placeholder

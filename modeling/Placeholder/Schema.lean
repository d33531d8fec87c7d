import Placeholder.Recipe
import Placeholder.Yaml.Reading

/-! Schemas declare generators by name, and are read from YAML texts. -/

namespace Placeholder

/-- A generator declared by its name and recipe. -/
structure Declaration where
  name : String
  recipe : Recipe

/-- Declared generators with the version of the schema that they follow. -/
structure Schema where
  version : Nat
  declarations : List Declaration

namespace Yaml.Document

/-- The text of a scalar, whatever it means. -/
def text (document : Document) (node : Node) : Resolve String := do
  match ← document.target node with
  | .scalar _ _ text => return text
  | _ => failure

/-- A scalar that was left out stands for an empty collection. -/
def isLeftOut : Node → Bool
  | .scalar _ .plain "" => true
  | _ => false

/-- The entries of a mapping, or none where it was left out. -/
def entries (document : Document) (node : Node) : Resolve (List (Node × Node)) := do
  match ← document.target node with
  | .mapping _ entries => return entries
  | node => if isLeftOut node then return [] else failure

/-- The items of a sequence, or none where it was left out. -/
def items (document : Document) (node : Node) : Resolve (List Node) := do
  match ← document.target node with
  | .sequence _ items => return items
  | node => if isLeftOut node then return [] else failure

/-- Entries by the texts of their keys. -/
def namedEntries (document : Document) (node : Node) : Resolve (List (String × Node)) := do
  (← document.entries node).mapM fun (key, value) => do
    return (← document.text key, value)

/-- The value of a field that may be given once. -/
def field? (name : String) (entries : List (String × Node)) : Resolve (Option Node) :=
  match entries.filter (·.1 == name) with
  | [] => pure none
  | [(_, value)] => pure (some value)
  | _ => failure

/-- The value of a field that is given once. -/
def field (name : String) (entries : List (String × Node)) : Resolve Node := do
  match ← field? name entries with
  | some value => return value
  | none => failure

/-- A whole number of 32 bits, plain or in a literal scalar with the tag of integers. -/
def version (document : Document) (node : Node) : Resolve Nat := do
  match ← document.target node with
  | .scalar tag style text =>
    let numeric := style == .plain || (style == .literal && tag == some .int)
    if !numeric || text.toList.head? == some '-' then failure
    match Scalar.integer? text.toList with
    | some value => if value < UInt32.size then return value.toNat else failure
    | none => failure
  | _ => failure

/-- A recipe within a depth: a mapping with a type, or a sequence that starts with one. -/
def recipe (document : Document) (depth : Nat) (node : Node) : Resolve Recipe := do
  match depth with
  | 0 => failure
  | depth + 1 =>
    match ← document.target node with
    | .mapping tag entries =>
      -- A recipe is no tagged datum, and nothing inside of it is.
      let read ← entries.mapM fun (key, value) => do
        let key ← document.datum false depth key
        match key with
        | .string "type" => return Sum.inl (← document.text value)
        | key => return Sum.inr (key, ← document.datum false depth value)
      match ownTag tag, read.filterMap Sum.getLeft? with
      | false, [kind] => (Recipe.ofEntries? kind (read.filterMap Sum.getRight?) : Option _)
      | _, _ => failure
    | .sequence tag (kind :: values) =>
      if ownTag tag then failure
      let kind ← document.text kind
      (Recipe.ofValues? kind (← values.mapM (document.datum false depth)) : Option _)
    | _ => failure
where
  /-- Whether a tag is an own name. -/
  ownTag : Option Tag → Bool
    | some (.own _) => true
    | _ => false

/-- A declaration within a depth. -/
def declaration (document : Document) (depth : Nat) (node : Node) : Resolve Declaration := do
  match depth with
  | 0 => failure
  | depth + 1 =>
    let entries ← document.namedEntries node
    let name ← document.text (← field "name" entries)
    return { name, recipe := ← document.recipe depth (← field "generator" entries) }

/-- A schema within a depth, in which unknown fields count for nothing. -/
def schema (document : Document) (depth : Nat) (node : Node) : Resolve Schema := do
  let entries ← document.namedEntries node
  let version ←
    match ← field? "version" entries with
    | some node => document.version node
    | none => pure 1
  let declarations ←
    match ← field? "generators" entries with
    | some node => do (← document.items node).mapM (document.declaration (depth - 2))
    | none => pure []
  return { version, declarations }

end Yaml.Document

/-- The recipe of a whole text. -/
def Recipe.ofText? (text : String) : Option Recipe := do
  let document ← Yaml.Document.ofText? text
  document.read? (document.recipe Yaml.depthLimit) none

/-- The schema of a whole text, which is empty for an empty text. -/
def Schema.ofText? (text : String) : Option Schema := do
  let document ← Yaml.Document.ofText? text
  document.read? (document.schema Yaml.depthLimit) (some ⟨1, []⟩)

end Placeholder

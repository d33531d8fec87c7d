import Placeholder.Yaml.Document
import Placeholder.Yaml.Scalar

/-! Nodes are read as data, following aliases within limits on their number and on the depth. -/

namespace Placeholder.Yaml

/-- A computation that spends a number of alias jumps and may fail. -/
abbrev Resolve (α : Type) :=
  StateT Nat Option α

/-- Collections may be nested this deep. -/
def depthLimit : Nat :=
  128

namespace Document

/-- The jumps that a document of a given size allows. -/
def jumpLimit (document : Document) : Nat :=
  100 * (document.root.map Node.size).getD 1

/-- The node that a node stands for, itself or the one it repeats. -/
def target (document : Document) (node : Node) : Resolve Node := do
  match node with
  | .alias anchor =>
    match ← get with
    | 0 => failure
    | left + 1 =>
      set left
      match document.anchored.lookup anchor with
      -- Aliases have no anchors, so a jump ends at a scalar or a collection.
      | some (.alias _) | none => failure
      | some node => return node
  | node => return node

/-- A datum under the own name of its tag, where such tags are allowed. -/
def named (ownTags : Bool) (tag : Option Tag) (datum : Datum) : Resolve Datum :=
  match tag with
  | some (.own name) => if ownTags then pure (.tagged name datum) else failure
  | _ => pure datum

/-- The meaning of a node within a depth, with or without own tags in it. -/
def datum (document : Document) (ownTags : Bool) : Nat → Node → Resolve Datum
  | depth, node => do
    match ← document.target node with
    | .alias _ => failure
    | .scalar tag style text => named ownTags tag (← (Scalar.meaning? tag style text : Option _))
    | .sequence tag items =>
      match depth with
      | 0 => failure
      | depth + 1 => named ownTags tag (.sequence (← items.mapM (datum document ownTags depth)))
    | .mapping tag entries =>
      match depth with
      | 0 => failure
      | depth + 1 =>
        let entries ← entries.mapM fun (key, value) => do
          let key ← datum document ownTags depth key
          return (key, ← datum document ownTags depth value)
        named ownTags tag (.mapping entries)

/-- A reader of the root is run with all the jumps of the document. -/
def read? {α : Type} (document : Document) (reader : Node → Resolve α) (missing : Option α) :
    Option α :=
  match document.root with
  | none => missing
  | some root => (reader root).run' document.jumpLimit

end Document

/-- The datum of a whole text, which is null for an empty one. -/
def Datum.ofText? (text : String) : Option Datum := do
  let document ← Document.ofText? text
  let datum ← document.read? (document.datum true depthLimit) (some .null)
  if datum.keysDistinct then some datum else none

end Placeholder.Yaml

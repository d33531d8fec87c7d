import Placeholder.Yaml.Token

/-! Nodes are the scalars and collections of a document, before their meaning is decided. -/

namespace Placeholder.Yaml

/-- What a tag asks for. -/
inductive Tag where
  | bool
  | int
  | float
  | null
  /-- A name that the document gives a meaning to. -/
  | own (name : String)
  /-- Any other tag, under which a scalar stays text. -/
  | foreign
deriving DecidableEq, Repr

namespace Tag

/-- A name loses its exclamation mark unless it is nothing else. -/
def unmarked (name : List Char) : List Char :=
  match name with
  | '!' :: c :: rest => c :: rest
  | name => name

/-- The tags of the core schema that scalars obey. -/
def core : List (String × Tag) :=
  [("tag:yaml.org,2002:bool", bool), ("tag:yaml.org,2002:int", int),
    ("tag:yaml.org,2002:float", float), ("tag:yaml.org,2002:null", null)]

/-- The tag that bytes spell, where an own name that is no text is as good as none. -/
def ofBytes? (bytes : List UInt8) : Option Tag :=
  match String.fromUTF8? ⟨bytes.toArray⟩ with
  | some text =>
    if text.toList.head? = some '!' then
      some (.own (String.ofList (unmarked (unmarked text.toList))))
    else some ((core.lookup text).getD .foreign)
  | none => if bytes.head? = some '!'.toUInt8 then none else some .foreign

end Tag

/-- A node of a document. -/
inductive Node where
  /-- A repetition of the node with a given anchor. -/
  | alias (anchor : Nat)
  | scalar (tag : Option Tag) (style : Style) (text : String)
  | sequence (tag : Option Tag) (items : List Node)
  | mapping (tag : Option Tag) (entries : List (Node × Node))
deriving Inhabited

namespace Node

/-- A scalar that is left out. -/
def empty : Node :=
  .scalar none .plain ""

mutual

/-- The count of marks that a node is made of, collections having one at each end. -/
def size : Node → Nat
  | .alias _ => 1
  | .scalar .. => 1
  | .sequence _ items => itemsSize items + 2
  | .mapping _ entries => entriesSize entries + 2

/-- The size of all items. -/
def itemsSize : List Node → Nat
  | [] => 0
  | item :: rest => item.size + itemsSize rest

/-- The size of all keys and values. -/
def entriesSize : List (Node × Node) → Nat
  | [] => 0
  | (key, value) :: rest => key.size + value.size + entriesSize rest

end

end Node

/-- The one document of a text, whose root may be missing altogether. -/
structure Document where
  root : Option Node
  /-- The anchored nodes, the last to start first. -/
  anchored : List (Nat × Node)

end Placeholder.Yaml

import Placeholder.Generator.Builtin
import Placeholder.Generator.Declared
import Placeholder.Schema

/-! Registries find generators by name, and each name is registered once. -/

namespace Placeholder

/-- Why a generator is not registered. -/
inductive RegistryError where
  /-- The name is not a word. -/
  | invalidName (name : String)
  /-- The name has a generator already. -/
  | alreadyRegistered (name : String)
deriving DecidableEq, Repr

/-- The wording of a refusal. -/
def RegistryError.message : RegistryError → String
  | .invalidName name =>
    "Invalid generator name '" ++ name ++ "': expected letters, digits or underscores"
  | .alreadyRegistered name => "Generator already registered: " ++ name

/-- Generators under names of their own, the last to be registered first. -/
structure Table where
  entries : List (String × Generator) := []

namespace Table

/-- The generator registered under a name. -/
def lookup (table : Table) (name : String) : Option Generator :=
  table.entries.lookup name

/-- Whether a name has a generator. -/
def contains (table : Table) (name : String) : Bool :=
  table.entries.any (·.1 == name)

/-- The number of registered generators. -/
def size (table : Table) : Nat :=
  table.entries.length

/-- Whether no generator is registered. -/
def isEmpty (table : Table) : Bool :=
  table.entries.isEmpty

/-- A generator is registered under a word that has none yet. -/
def register (table : Table) (name : String) (generator : Generator) :
    Except RegistryError Table :=
  if !Text.isWord name.toList then .error (.invalidName name)
  else if table.contains name then .error (.alreadyRegistered name)
  else .ok { entries := (name, generator) :: table.entries }

/-- A declaration is registered as a generator that ignores its options. -/
def declare (table : Table) (declaration : Declaration) : Except RegistryError Table :=
  table.register declaration.name fun _ => declaration.recipe.generate

/-- The generators of a schema, registered in its order. -/
def ofSchema (schema : Schema) : Except RegistryError Table :=
  schema.declarations.foldlM declare {}

/-- The registered names in increasing order. -/
def names (table : Table) : List String :=
  (table.entries.map (·.1)).mergeSort fun left right => left ≤ right

/-- The registered names as a text for people to read. -/
def summary (table : Table) : String :=
  let quoted := table.names.map fun name => "\"" ++ name ++ "\""
  "CustomRegistry \x7b generators: [" ++ ", ".intercalate quoted ++ "] \x7d"

end Table

/-- Tables, built-in generators and any other finders of generators, asked one after another. -/
inductive Registry where
  | builtins
  | table (own : Table)
  | other (find : String → Option Generator)
  | layered (primary fallback : Registry)
deriving Inhabited

namespace Registry

/-- The generator of a name, from the first layer that has one. -/
def lookup (registry : Registry) (clock : Clock) (name : String) : Option Generator :=
  match registry with
  | .builtins => Generator.builtin? clock name
  | .table own => own.lookup name
  | .other find => find name
  | .layered primary fallback => primary.lookup clock name <|> fallback.lookup clock name

/-- The registry that is asked second. -/
def fallback? : Registry → Option Registry
  | .layered _ fallback => some fallback
  | _ => none

/-- The number of generators in a table. -/
def tableSize? : Registry → Option Nat
  | .table own => some own.size
  | _ => none

end Registry

end Placeholder

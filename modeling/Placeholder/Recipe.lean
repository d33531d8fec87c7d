import Placeholder.Integer
import Placeholder.Yaml.Datum

/-! Recipes configure generators that a schema declares. -/

namespace Placeholder

/-- What a declared generator produces, whatever arguments it is given. -/
inductive Recipe where
  /-- A random identifier. -/
  | uuid
  /-- An integer between two bounds. -/
  | intRange (min max : Int64)
  /-- A float between two bounds. -/
  | floatRange (min max : Binary64)
  /-- A truth value with a probability of being true. -/
  | weightedBool (weight : Binary64)
  /-- One of some data. -/
  | oneOf (choices : List Yaml.Datum)
  /-- Always the same datum. -/
  | static (datum : Yaml.Datum)
  /-- Always null. -/
  | null
deriving Inhabited

namespace Recipe

/-- The kinds of recipes, with the names of their fields. -/
def kinds : List (String × List String) :=
  [("uuid_v4", []), ("int_range", ["min", "max"]), ("float_range", ["min", "max"]),
    ("weighted_bool", ["true_weight"]), ("one_of", ["values"]), ("static", ["value"]),
    ("null", [])]

/-- A bound of integers, which floats are not taken for. -/
def integer? : Yaml.Datum → Option Int64
  | .int value => Integer.narrow? value
  | _ => none

/-- A bound of floats, which integers are taken for too. -/
def number? : Yaml.Datum → Option Binary64
  | .int value => some (.ofInt value)
  | .float value => some value
  | _ => none

/-- A datum that repeats no key. -/
def datum? (datum : Yaml.Datum) : Option Yaml.Datum :=
  if datum.keysDistinct then some datum else none

/-- The recipe of a kind with the values of its fields. -/
def ofValues? (kind : String) (values : List Yaml.Datum) : Option Recipe :=
  match kind, values with
  | "uuid_v4", [] => some .uuid
  | "int_range", [min, max] => return .intRange (← integer? min) (← integer? max)
  | "float_range", [min, max] => return .floatRange (← number? min) (← number? max)
  | "weighted_bool", [weight] => (number? weight).map .weightedBool
  | "one_of", [.sequence choices] => (choices.mapM datum?).map .oneOf
  | "static", [value] => (datum? value).map .static
  | "null", [] => some .null
  | _, _ => none

/-- The field that a key names, by text or by position, or no field that is known. -/
def field? (names : List String) : Yaml.Datum → Option (Option Nat)
  | .string name => some (names.idxOf? name)
  | .int position =>
    if position < 0 then none
    else some (if position < names.length then some position.toNat else none)
  | _ => none

/-- The values of named fields, each of which is given once among entries. -/
def fieldValues? (names : List String) (entries : List (Yaml.Datum × Yaml.Datum)) :
    Option (List Yaml.Datum) := do
  let known ← entries.mapM fun (key, value) => (field? names key).map (·, value)
  (List.range names.length).mapM fun position =>
    match known.filter (·.1 == some position) with
    | [(_, value)] => some value
    | _ => none

/-- The recipe of a kind from entries of a mapping, which a kind without fields ignores. -/
def ofEntries? (kind : String) (entries : List (Yaml.Datum × Yaml.Datum)) : Option Recipe := do
  match ← kinds.lookup kind with
  | [] => ofValues? kind []
  | names => ofValues? kind (← fieldValues? names entries)

end Recipe

end Placeholder

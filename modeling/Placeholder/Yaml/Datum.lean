import Placeholder.Binary64.Basic

/-! Data are what YAML nodes mean: scalars of several kinds, collections and tagged data. -/

namespace Placeholder.Yaml

/-- The meaning of a node. -/
inductive Datum where
  | null
  | bool (value : Bool)
  | int (value : Int)
  | float (value : Binary64)
  | string (value : String)
  | sequence (items : List Datum)
  | mapping (entries : List (Datum × Datum))
  | tagged (name : String) (datum : Datum)
deriving Inhabited

namespace Datum

/-- Whether a datum has a tag on it. -/
def isTagged : Datum → Bool
  | .tagged .. => true
  | _ => false

/-- Two floats are one key when they are numerically equal or both not-a-number. -/
def sameFloat (left right : Binary64) : Bool :=
  left.equal right || (left.isNaN && right.isNaN)

mutual

/-- Whether two data are one key, where the order of the entries of mappings does not count. -/
def same : Datum → Datum → Bool
  | .null, .null => true
  | .bool left, .bool right => left == right
  | .int left, .int right => left == right
  | .float left, .float right => sameFloat left right
  | .string left, .string right => left == right
  | .sequence left, .sequence right => sameItems left right
  | .mapping left, .mapping right => left.length == right.length && containsAll left right
  | .tagged leftName left, .tagged rightName right => leftName == rightName && same left right
  | _, _ => false

/-- Whether two sequences have the same items in the same order. -/
def sameItems : List Datum → List Datum → Bool
  | [], [] => true
  | left :: lefts, right :: rights => same left right && sameItems lefts rights
  | _, _ => false

/-- Whether every one of the first entries is among the second ones. -/
def containsAll : List (Datum × Datum) → List (Datum × Datum) → Bool
  | [], _ => true
  | (key, value) :: rest, entries => contains key value entries && containsAll rest entries

/-- Whether an entry is among entries. -/
def contains (key value : Datum) : List (Datum × Datum) → Bool
  | [] => false
  | (otherKey, other) :: rest =>
    (same key otherKey && same value other) || contains key value rest

end

mutual

/-- Whether no mapping inside a datum has a key twice. -/
def keysDistinct : Datum → Bool
  | .sequence items => itemsDistinct items
  | .mapping entries => entriesDistinct entries
  | .tagged _ datum => keysDistinct datum
  | _ => true

/-- Whether the keys are distinct inside of every item. -/
def itemsDistinct : List Datum → Bool
  | [] => true
  | item :: rest => keysDistinct item && itemsDistinct rest

/-- Whether the keys are distinct among entries and inside of them. -/
def entriesDistinct : List (Datum × Datum) → Bool
  | [] => true
  | (key, value) :: rest =>
    keysDistinct key && keysDistinct value && rest.all (fun (other, _) => !same key other) &&
      entriesDistinct rest

end

end Datum

end Placeholder.Yaml

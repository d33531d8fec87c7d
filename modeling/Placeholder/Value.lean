import Placeholder.Arg
import Placeholder.Binary64.Integral

/-! Values are what generators produce: null, scalars, lists and objects. -/

namespace Placeholder

/-- A produced value, whose objects are made with their fields in increasing order of the keys. -/
inductive Value where
  | null
  | bool (value : Bool)
  | int (value : Int64)
  | float (value : Binary64)
  | string (value : String)
  | array (items : List Value)
  | object (fields : List (String × Value))
deriving Inhabited

namespace Value

/-- A field put among fields in order, in place of one with the same key. -/
def insertField (key : String) (value : Value) :
    List (String × Value) → List (String × Value)
  | [] => [(key, value)]
  | (other, old) :: rest =>
    if key < other then (key, value) :: (other, old) :: rest
    else if key = other then (key, value) :: rest
    else (other, old) :: insertField key value rest

/-- An object with given fields, where the last of several with one key counts. -/
def ofFields (fields : List (String × Value)) : Value :=
  .object (fields.foldl (fun ordered (key, value) => insertField key value ordered) [])

mutual

/-- Values are alike when their shapes agree and their numbers are numerically equal. -/
def alike : Value → Value → Bool
  | .null, .null => true
  | .bool left, .bool right => left == right
  | .int left, .int right => left == right
  | .float left, .float right => left.equal right
  | .string left, .string right => left == right
  | .array left, .array right => allAlike left right
  | .object left, .object right => fieldsAlike left right
  | _, _ => false

/-- Lists of values are alike when their items are, one by one. -/
def allAlike : List Value → List Value → Bool
  | [], [] => true
  | left :: lefts, right :: rights => alike left right && allAlike lefts rights
  | _, _ => false

/-- Fields are alike when their keys are the same and their values alike, one by one. -/
def fieldsAlike : List (String × Value) → List (String × Value) → Bool
  | [], [] => true
  | (leftKey, left) :: lefts, (rightKey, right) :: rights =>
    leftKey == rightKey && alike left right && fieldsAlike lefts rights
  | _, _ => false

end

/-- An integer, which becomes the nearest float beyond the machine integers. -/
def ofInteger (value : Int) : Value :=
  match Integer.narrow? value with
  | some value => .int value
  | none => .float (.ofInt value)

/-- The value that an argument stands for. -/
def ofArg : Arg → Value
  | .number value => .int value
  | .text content => .string content

/-- Whether a value is null. -/
def isNull : Value → Bool
  | .null => true
  | _ => false

/-- The content of a truth value. -/
def bool? : Value → Option Bool
  | .bool value => some value
  | _ => none

/-- The content of an integer. -/
def int? : Value → Option Int64
  | .int value => some value
  | _ => none

/-- The content of a number, an integer being taken for the nearest float. -/
def float? : Value → Option Binary64
  | .float value => some value
  | .int value => some (.ofInt64 value)
  | _ => none

/-- The content of a string. -/
def string? : Value → Option String
  | .string value => some value
  | _ => none

/-- The items of an array. -/
def array? : Value → Option (List Value)
  | .array items => some items
  | _ => none

/-- The fields of an object. -/
def object? : Value → Option (List (String × Value))
  | .object fields => some fields
  | _ => none

end Value

end Placeholder

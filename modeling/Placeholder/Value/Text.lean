import Placeholder.Decimal.Spelling
import Placeholder.Value

/-! Values are written as JSON, or as plain text in which a string stands for itself. -/

namespace Placeholder.Value

/-- A character inside a JSON string, where only quotes, backslashes and controls are escaped. -/
def escaped (c : Char) : List Char :=
  match c with
  | '"' => ['\\', '"']
  | '\\' => ['\\', '\\']
  | '\n' => ['\\', 'n']
  | '\r' => ['\\', 'r']
  | '\t' => ['\\', 't']
  | '\x08' => ['\\', 'b']
  | '\x0c' => ['\\', 'f']
  | c =>
    if c.toNat < 0x20 then
      ['\\', 'u', '0', '0', Text.hexDigit (c.toNat / 16), Text.hexDigit (c.toNat % 16)]
    else [c]

/-- A string between quotes. -/
def quoted (text : String) : String :=
  String.ofList ('"' :: (text.toList.flatMap escaped ++ ['"']))

mutual

/-- The JSON text of a value, without any space between its parts. -/
def toJson : Value → String
  | .null => "null"
  | .bool value => if value then "true" else "false"
  | .int value => toString value.toInt
  | .float value => Spelling.json.text value
  | .string value => quoted value
  | .array items => "[" ++ ",".intercalate (itemsToJson items) ++ "]"
  | .object fields => "\x7b" ++ ",".intercalate (fieldsToJson fields) ++ "\x7d"

/-- The JSON texts of items. -/
def itemsToJson : List Value → List String
  | [] => []
  | item :: rest => toJson item :: itemsToJson rest

/-- The JSON texts of fields. -/
def fieldsToJson : List (String × Value) → List String
  | [] => []
  | (key, value) :: rest => (quoted key ++ ":" ++ toJson value) :: fieldsToJson rest

end

/-- The plain text of a value: strings bare, floats without exponent, and the rest as JSON. -/
def toPlain : Value → String
  | .string value => value
  | .float value => Spelling.plain.text value
  | value => value.toJson

/-- The output for a value or for none, which only JSON can show. -/
def render (value : Option Value) (json : Bool) : Option String :=
  if json then
    match value with
    | some value => some value.toJson
    | none => some "null"
  else value.map toPlain

end Placeholder.Value

import Placeholder.Text.Blank
import Placeholder.Value
import Placeholder.Yaml.Writing

/-! YAML data become values as a whole, or else stay YAML text as a whole. -/

namespace Placeholder.Value

mutual

/-- The value of the same shape as a datum, if no tag and no key but a string is in it. -/
def image? : Yaml.Datum → Option Value
  | .null => some .null
  | .bool value => some (.bool value)
  | .int value => some (ofInteger value)
  | .float value => some (.float value)
  | .string value => some (.string value)
  | .sequence items => (imageItems? items).map .array
  | .mapping entries => (imageFields? entries).map ofFields
  | .tagged .. => none

/-- The values of all items, if every item has one. -/
def imageItems? : List Yaml.Datum → Option (List Value)
  | [] => some []
  | item :: rest => do
    let value ← image? item
    let values ← imageItems? rest
    return value :: values

/-- The fields of all entries, if every key is a string and every value has an image. -/
def imageFields? : List (Yaml.Datum × Yaml.Datum) → Option (List (String × Value))
  | [] => some []
  | (key, value) :: rest =>
    match key with
    | .string key => do
      let value ← image? value
      let fields ← imageFields? rest
      return (key, value) :: fields
    | _ => none

end

/--
The value of a datum, which is the text of the whole datum when it has no image.

The text is empty when the datum cannot be written.
-/
def ofYaml (datum : Yaml.Datum) : Value :=
  match image? datum with
  | some value => value
  | none => .string (String.ofList (Text.trimEnd (datum.toText?.getD "").toList))

end Placeholder.Value

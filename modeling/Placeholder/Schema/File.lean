import Placeholder.Schema

/-! Schemas are read from files, which can fail for reasons of the file or of the text in it. -/

namespace Placeholder

/-- Why the text of a file cannot be had. -/
inductive FileError where
  /-- There is no such file. -/
  | notFound
  /-- It is a directory. -/
  | isDirectory
  /-- Its bytes are no UTF-8 text. -/
  | notText
  /-- The system gives another reason. -/
  | refused (reason : String)
deriving DecidableEq, Repr

/-- The wording of a failure to have a text. -/
def FileError.message : FileError → String
  | .notFound => "No such file or directory (os error 2)"
  | .isDirectory => "Is a directory (os error 21)"
  | .notText => "stream did not contain valid UTF-8"
  | .refused reason => reason

/-- Why a schema cannot be read from a file. -/
inductive SchemaError where
  | unreadable (cause : FileError)
  | malformed
deriving DecidableEq, Repr

/-- The wording of a failure to read a schema. -/
def SchemaError.message : SchemaError → String
  | .unreadable cause => "Failed to read schema file: " ++ cause.message
  | .malformed => "Failed to parse YAML"

/-- The text of bytes in UTF-8. -/
def textOf (bytes : ByteArray) : Except FileError String :=
  match String.fromUTF8? bytes with
  | some text => .ok text
  | none => .error .notText

/-- The schema in a file with the given content. -/
def Schema.ofFile (content : Except FileError ByteArray) : Except SchemaError Schema :=
  match content.bind textOf with
  | .error cause => .error (.unreadable cause)
  | .ok text =>
    match Schema.ofText? text with
    | some schema => .ok schema
    | none => .error .malformed

end Placeholder

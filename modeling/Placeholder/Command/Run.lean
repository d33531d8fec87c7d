import Placeholder.Command.Request
import Placeholder.Resolver
import Placeholder.Schema.File
import Placeholder.Value.Text

/-! Runs print every line of their output or fail without any. -/

namespace Placeholder

/-- Each text is resolved a number of times, and the results that can be shown are its lines. -/
def Resolver.lines (resolver : Resolver) (count : Nat) (json : Bool) (texts : List String) :
    Draw (List String) := do
  let shown ← texts.mapM fun text =>
    Draw.times count do return Value.render (← resolver.mock text) json
  return shown.flatten.filterMap id

namespace Command

/-- Why a request fails. -/
inductive Failure where
  /-- The file of further generators cannot be read. -/
  | unreadableConfig (path : String) (cause : SchemaError)
  /-- The file of further generators declares some that cannot be registered. -/
  | invalidConfig (path : String) (cause : RegistryError)
  /-- The standard input cannot be read. -/
  | unreadableInput (cause : FileError)
deriving DecidableEq, Repr

/-- The wording of a failure, in which the reason for an unreadable file is told twice. -/
def Failure.message : Failure → String
  | .unreadableConfig path (.unreadable cause) =>
    "Failed to load generator config " ++ path ++ ": " ++
      (SchemaError.unreadable cause).message ++ ": " ++ cause.message
  | .unreadableConfig path .malformed =>
    "Failed to load generator config " ++ path ++ ": " ++ SchemaError.malformed.message
  | .invalidConfig path cause =>
    "Invalid generator config " ++ path ++ ": " ++ cause.message
  | .unreadableInput cause =>
    "Failed to read directives from stdin: " ++ cause.message

/-- What a run finds around it. -/
structure Surroundings where
  /-- The path of a file of further generators, for when the command line names none. -/
  path : Option String := none
  /-- The files. -/
  file : String → Except FileError ByteArray
  /-- The standard input. -/
  input : ByteArray := .empty
  clock : Clock

/-- The further generators that settings ask for. -/
def Settings.table (settings : Settings) (file : String → Except FileError ByteArray) :
    Except Failure Table :=
  match settings.config with
  | none => .ok {}
  | some path =>
    match Schema.ofFile (file path) with
    | .error cause => .error (.unreadableConfig path cause)
    | .ok schema =>
      match Table.ofSchema schema with
      | .error cause => .error (.invalidConfig path cause)
      | .ok table => .ok table

/-- The directives of a request, or else the lines of the standard input. -/
def Request.texts (request : Request) (input : ByteArray) : Except Failure (List String) :=
  match request.directives with
  | [] =>
    match textOf input with
    | .error cause => .error (.unreadableInput cause)
    | .ok text => .ok ((Text.lines text.toList).map String.ofList)
  | directives => .ok directives

/-- How a run ends. -/
inductive Outcome where
  /-- The command line was refused. -/
  | refusal (cause : Refusal)
  /-- The request failed. -/
  | failure (cause : Failure)
  /-- The lines were printed. -/
  | success (lines : List String)
deriving DecidableEq, Repr

/-- What an outcome shows on the standard output. -/
def Outcome.output : Outcome → String
  | .success lines => String.join (lines.map (· ++ "\n"))
  | _ => ""

/-- The exit status of an outcome. -/
def Outcome.status : Outcome → Nat
  | .success _ => 0
  | .failure _ => 1
  | .refusal .help => 0
  | .refusal _ => 2

/-- A request is carried out, its file of generators being read before the standard input. -/
def Request.run (request : Request) (surroundings : Surroundings) : Draw Outcome :=
  match request.settings.table surroundings.file with
  | .error cause => return .failure cause
  | .ok table =>
    match request.texts surroundings.input with
    | .error cause => return .failure cause
    | .ok texts => do
      let resolver : Resolver := { clock := surroundings.clock, fallback := .table table }
      let settings := request.settings
      return .success (← resolver.lines settings.count settings.json texts)

/-- A command line is carried out. -/
def run (surroundings : Surroundings) (words : List String) : Draw Outcome :=
  match Request.ofWords surroundings.path words with
  | .error cause => return .refusal cause
  | .ok request => request.run surroundings

end Command

end Placeholder

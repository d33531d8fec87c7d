import Placeholder.Text.Pieces

/-! Words of a command line are options or directives, and after a bare `--` all are directives. -/

namespace Placeholder.Command

/-- Why a command line is not carried out. -/
inductive Refusal where
  /-- It asks for help instead. -/
  | help
  /-- A word looks like an option, and none has that name. -/
  | unknownOption (word : String)
  /-- An option is left without the value that it needs. -/
  | missingValue (name : String)
  /-- An option is given a value that it has no use for. -/
  | unneededValue (name : String)
  /-- An option is given a value that it cannot take. -/
  | invalidValue (name value : String)
  /-- An option is given twice. -/
  | repeatedOption (name : String)
  /-- A directive is given where there is no place for one. -/
  | unexpectedDirective (word : String)
deriving DecidableEq, Repr

/-- What one or two words of a command line say. -/
inductive Argument where
  | config (path : String)
  | count (numeral : String)
  | json
  | directive (text : String)
  | refused (cause : Refusal)
deriving DecidableEq, Repr

namespace Argument

/-- Whether a word is no option, which is true of a bare hyphen too. -/
def isPlain (word : String) : Bool :=
  match word.toList with
  | '-' :: _ :: _ => false
  | _ => true

/-- An option with a value. -/
def ofValue (name value : String) : Argument :=
  match name with
  | "config" => .config value
  | "count" => .count value
  | "json" | "help" => .refused (.unneededValue name)
  | name => .refused (.unknownOption ("--" ++ name))

/-- Whether an option needs a value. -/
def needsValue (name : String) : Bool :=
  name == "config" || name == "count"

/-- An option that stands alone. -/
def ofFlag (name : String) : Argument :=
  match name with
  | "json" => .json
  | "help" => .refused .help
  | name => .refused (.unknownOption ("--" ++ name))

/-- The arguments in the words after an option that may still wait for its value. -/
def ofWordsAfter (waiting : Option String) : List String → List Argument
  | [] =>
    match waiting with
    | some name => [.refused (.missingValue name)]
    | none => []
  | word :: rest =>
    match waiting with
    | some name =>
      -- Nothing after a refusal counts.
      if isPlain word then ofValue name word :: ofWordsAfter none rest
      else [.refused (.missingValue name)]
    | none =>
      match word.toList with
      | ['-', '-'] => rest.map .directive
      | '-' :: '-' :: option =>
        match Text.cutFirst '=' option with
        | some (name, value) =>
          ofValue (String.ofList name) (String.ofList value) :: ofWordsAfter none rest
        | none =>
          let name := String.ofList option
          if needsValue name then ofWordsAfter (some name) rest
          else ofFlag name :: ofWordsAfter none rest
      | '-' :: 'h' :: _ => .refused .help :: ofWordsAfter none rest
      | '-' :: _ :: _ => .refused (.unknownOption word) :: ofWordsAfter none rest
      | _ => .directive word :: ofWordsAfter none rest

/-- The arguments that the words of a command line make up, in order. -/
def ofWords (words : List String) : List Argument :=
  ofWordsAfter none words

end Argument

end Placeholder.Command

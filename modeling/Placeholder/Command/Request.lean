import Placeholder.Command.Argument
import Placeholder.Text.Digits

/-! Requests are what command lines ask for, where every option is given at most once. -/

namespace Placeholder.Command

/-- How directives are resolved and shown. -/
structure Settings where
  /-- The path of the file that declares further generators. -/
  config : Option String := none
  /-- How many values each directive is resolved to. -/
  count : Nat := 1
  /-- Whether values are shown as JSON. -/
  json : Bool := false
deriving DecidableEq, Repr

/-- Settings with the directives of the command line. -/
structure Request where
  settings : Settings := {}
  directives : List String := []
deriving DecidableEq, Repr

/-- A count is a run of digits, after at most one plus sign, for a number of 64 bits. -/
def count? (numeral : String) : Option Nat :=
  let digits :=
    match numeral.toList with
    | '+' :: digits => digits
    | digits => digits
  if Text.isDigits digits && Text.decimalValue digits < UInt64.size then
    some (Text.decimalValue digits)
  else none

/-- What a command line has said so far. -/
structure Draft where
  config : Option String := none
  count : Option Nat := none
  json : Bool := false
  /-- The directives, the last one first. -/
  directives : List String := []

namespace Draft

/-- One argument is added, and refused when it repeats an option. -/
def add (draft : Draft) : Argument → Except Refusal Draft
  | .config "" => .error (.invalidValue "config" "")
  | .config path =>
    if draft.config.isSome then .error (.repeatedOption "config")
    else .ok { draft with config := some path }
  | .count numeral =>
    match count? numeral with
    | some count =>
      if draft.count.isSome then .error (.repeatedOption "count")
      else .ok { draft with count := some count }
    | none => .error (.invalidValue "count" numeral)
  | .json =>
    if draft.json then .error (.repeatedOption "json") else .ok { draft with json := true }
  | .directive text => .ok { draft with directives := text :: draft.directives }
  | .refused cause => .error cause

/-- A whole draft, in which a path from elsewhere stands in for one that was not given. -/
def finish (draft : Draft) (path : Option String) : Except Refusal Request := do
  let config ←
    match draft.config, path with
    | some path, _ => pure (some path)
    | none, some "" => throw (.invalidValue "config" "")
    | none, path => pure path
  return {
    settings := { config, count := draft.count.getD 1, json := draft.json }
    directives := draft.directives.reverse }

end Draft

/-- The request of a command line, with a path for when it does not name a file itself. -/
def Request.ofWords (path : Option String) (words : List String) : Except Refusal Request := do
  let draft ← (Argument.ofWords words).foldlM Draft.add {}
  draft.finish path

/-- The settings of a command line that has no place for directives. -/
def Settings.ofWords (path : Option String) (words : List String) : Except Refusal Settings := do
  let request ← Request.ofWords path words
  match request.directives with
  | [] => return request.settings
  | word :: _ => throw (.unexpectedDirective word)

end Placeholder.Command

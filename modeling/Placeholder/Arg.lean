import Placeholder.Integer
import Placeholder.Text.Blank
import Placeholder.Text.Digits
import Placeholder.Text.Pieces
import Placeholder.Text.Word

/-! Arguments of a directive are numbers or texts, and texts can be coerced to integers. -/

namespace Placeholder

/-- One argument of a directive. -/
inductive Arg where
  /-- A token of decimal digits alone. -/
  | number (value : Int64)
  /-- Any other token, kept as it is. -/
  | text (content : String)
deriving DecidableEq, Repr

namespace Arg

/-- A token of digits is a number, held to the largest machine integer, and all else is text. -/
def classify (token : String) : Arg :=
  if Text.isDigits token.toList then
    .number (Integer.saturate (Text.decimalValue token.toList))
  else .text token

/-- The text that an argument is written with. -/
def toText : Arg → String
  | .number value => toString value.toInt
  | .text content => content

/-- The content of a text argument. -/
def content? : Arg → Option String
  | .number _ => none
  | .text content => some content

/-- A text `name=value` with a word before its first `=` is an option with a classified value. -/
def option? (arg : Arg) : Option (String × Arg) := do
  let content ← arg.content?
  let (name, value) ← Text.cutFirst '=' content.toList
  if Text.isWord name then some (String.ofList name, classify (String.ofList value)) else none

/-- The digits after leading blanks and one optional sign, read as a machine integer. -/
def leadingInteger? (text : List Char) : Option Int64 :=
  let (negative, unsigned) :=
    match Text.trimStart text with
    | '-' :: rest => (true, rest)
    | '+' :: rest => (false, rest)
    | rest => (false, rest)
  match unsigned.takeWhile Char.isDigit with
  | [] => none
  | digits =>
    -- The magnitude is held to the largest integer before the sign is applied.
    let magnitude := Integer.saturate (Text.decimalValue digits)
    some (if negative then -magnitude else magnitude)

/-- The integer that an argument is taken for. -/
def integer? : Arg → Option Int64
  | .number value => some value
  | .text content => leadingInteger? content.toList

end Arg

end Placeholder

import Placeholder.Decimal.Reading
import Placeholder.Yaml.Datum
import Placeholder.Yaml.Node

/-! Scalars mean null, a truth value or a number when they are plain and look like one. -/

namespace Placeholder.Yaml.Scalar

/-- The words for null. -/
def isNull (text : String) : Bool :=
  ["~", "null", "Null", "NULL"].contains text

/-- The words for truth values. -/
def bool? (text : String) : Option Bool :=
  if ["true", "True", "TRUE"].contains text then some true
  else if ["false", "False", "FALSE"].contains text then some false
  else none

/-- A text without the sign that it may start with, and whether that is a minus. -/
def unsigned (text : List Char) : Bool × List Char :=
  match text with
  | '-' :: rest => (true, rest)
  | '+' :: rest => (false, rest)
  | rest => (false, rest)

/-- Digits after a leading zero are not taken for a number. -/
def isPadded (text : List Char) : Bool :=
  match (unsigned text).2 with
  | '0' :: c :: rest => (c :: rest).all Char.isDigit
  | _ => false

/-- The number that a text without sign writes, in base sixteen, eight, two or ten. -/
def natural? (text : List Char) : Option Nat :=
  match text with
  | '0' :: 'x' :: digits => Text.numeralValue? 16 digits
  | '0' :: 'o' :: digits => Text.numeralValue? 8 digits
  | '0' :: 'b' :: digits => Text.numeralValue? 2 digits
  | digits => Text.numeralValue? 10 digits

/-- The integer that a text writes, as far as 128 bits reach. -/
def integer? (text : List Char) : Option Int := do
  if isPadded text then none
  let (negative, digits) := unsigned text
  let value ← natural? digits
  if negative then if value ≤ Nat.pow 2 127 then some (-value) else none
  else if value < Nat.pow 2 128 then some value else none

/-- Integers of 64 bits with or without sign have a meaning. -/
def hasMeaning (value : Int) : Bool :=
  Int64.minValue.toInt ≤ value && value < UInt64.size

/-- The number that a text writes as a float, where infinities and not-a-number are words. -/
def float? (text : String) : Option Binary64 :=
  if [".inf", ".Inf", ".INF", "+.inf", "+.Inf", "+.INF"].contains text then
    some (.infinity false)
  else if ["-.inf", "-.Inf", "-.INF"].contains text then some (.infinity true)
  else if [".nan", ".NaN", ".NAN"].contains text then some .nan
  else Binary64.ofNumeral? text.toList

/-- The meaning of a plain scalar, which an integer of more than 64 bits does not have. -/
def plain? (text : String) : Option Datum :=
  if text.isEmpty || isNull text then some .null
  else
    match bool? text with
    | some value => some (.bool value)
    | none =>
      match integer? text.toList with
      | some value => if hasMeaning value then some (.int value) else none
      | none =>
        match if isPadded text.toList then none else float? text with
        | some value => some (.float value)
        | none => some (.string text)

/-- The meaning of a scalar without an own tag, where a core tag insists on its kind. -/
def meaning? (tag : Option Tag) (style : Style) (text : String) : Option Datum :=
  match tag with
  | some .bool => (bool? text).map .bool
  | some .int => ((integer? text.toList).filter hasMeaning).map .int
  | some .float => (float? text).map .float
  | some .null => if isNull text then some .null else none
  | some .foreign => some (.string text)
  | some (.own _) | none => if style = .plain then plain? text else some (.string text)

end Placeholder.Yaml.Scalar

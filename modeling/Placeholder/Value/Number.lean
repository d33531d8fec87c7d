import Placeholder.Binary64.Integral
import Placeholder.Text.Digits
import Placeholder.Value

/-! Numbers of JSON texts become machine integers where they fit and floats elsewhere. -/

namespace Placeholder.Value

/-- A significand of 64 bits after the digits that it has room for, with the digits left over. -/
def accumulate (significand : Nat) : List Char → Nat × List Char
  | [] => (significand, [])
  | c :: rest =>
    let next := 10 * significand + Text.digitValue c
    if UInt64.size ≤ next then (significand, c :: rest) else accumulate next rest

/-- A float times a power of ten, which is refused beyond the largest finite number. -/
def scale? (value : Binary64) (exponent : Int) : Option Binary64 :=
  if exponent.natAbs ≤ 308 then
    let power := Binary64.ofDecimal false 1 exponent.natAbs
    if exponent < 0 then some (value / power)
    else some (value * power) |>.filter (·.isFinite)
  else if value.equal .zero then some value
  else if 0 ≤ exponent then none
  else scale? (value / Binary64.ofDecimal false 1 308) (exponent + 308)
termination_by exponent.natAbs
decreasing_by omega

/-- The sign is put before a magnitude. -/
def signed (negative : Bool) (magnitude : Binary64) : Binary64 :=
  if negative then magnitude.neg else magnitude

/-- An exponent part of a number, which may be absent, with the text after it. -/
def exponentPart? (text : List Char) : Option (Option (Bool × Nat) × List Char) :=
  match text with
  | mark :: rest =>
    if mark = 'e' ∨ mark = 'E' then
      let (negative, rest) :=
        match rest with
        | '-' :: rest => (true, rest)
        | '+' :: rest => (false, rest)
        | rest => (false, rest)
      match rest.takeWhile Char.isDigit with
      | [] => none
      | digits => some (some (negative, Text.decimalValue digits), rest.dropWhile Char.isDigit)
    else some (none, text)
  | [] => some (none, text)

/-- A fraction part of a number, which may be absent but has a digit when present. -/
def fractionPart? (text : List Char) : Option (List Char × List Char) :=
  match text with
  | '.' :: rest =>
    match rest.takeWhile Char.isDigit with
    | [] => none
    | digits => some (digits, rest.dropWhile Char.isDigit)
  | _ => some ([], text)

/-- The digits before the point, where a zero stands alone. -/
def wholePart? (text : List Char) : Option (List Char × List Char) :=
  match text.takeWhile Char.isDigit with
  | [] => none
  | '0' :: _ :: _ => none
  | digits => some (digits, text.dropWhile Char.isDigit)

/-- A number without point or exponent, of which a negative zero is no integer. -/
def ofSignificand (negative : Bool) (significand : Nat) : Value :=
  if negative then
    if significand = 0 then .float (Binary64.neg .zero) else ofInteger (-significand)
  else ofInteger significand

/-- The unsigned number at the start of a text, with its sign given. -/
def number? (negative : Bool) (text : List Char) : Option (Value × List Char) := do
  let (whole, afterWhole) ← wholePart? text
  let (fraction, afterFraction) ← fractionPart? afterWhole
  let (exponent, rest) ← exponentPart? afterFraction
  let (wholeValue, dropped) := accumulate 0 whole
  let (significand, ignored) := accumulate wholeValue fraction
  if fraction.isEmpty && exponent.isNone && dropped.isEmpty then
    return (ofSignificand negative significand, rest)
  -- Dropped whole digits raise the exponent, and kept fraction digits lower it.
  let shift : Int := dropped.length - (fraction.length - ignored.length)
  let magnitude ←
    match exponent with
    | none => scale? (Binary64.ofInt significand) shift
    | some (below, size) =>
      if Int32.maxValue.toInt < size then
        -- An exponent beyond 32 bits leaves only zero or an overflow.
        if significand = 0 ∨ below then some .zero else none
      else scale? (Binary64.ofInt significand) (if below then shift - size else shift + size)
  return (.float (signed negative magnitude), rest)

end Placeholder.Value

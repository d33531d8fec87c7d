import Placeholder.Binary64.Basic
import Placeholder.Decimal.Shortest
import Placeholder.Text.Digits

/-! Decimal numerals are read as the nearest binary64 numbers. -/

namespace Placeholder

namespace Decimal

/-- The exponent part of a numeral, which may be absent. -/
def exponentPart? : List Char → Option Int
  | [] => some 0
  | mark :: rest =>
    if mark = 'e' ∨ mark = 'E' then
      let (negative, digits) :=
        match rest with
        | '-' :: digits => (true, digits)
        | '+' :: digits => (false, digits)
        | digits => (false, digits)
      if Text.isDigits digits then
        let value : Int := Text.decimalValue digits
        some (if negative then -value else value)
      else none
    else none

/-- An unsigned numeral: digits with an optional point among or around them, then an exponent. -/
def ofNumeral? (text : List Char) : Option Decimal :=
  let whole := text.takeWhile Char.isDigit
  let rest := text.dropWhile Char.isDigit
  let (fraction, rest) :=
    match rest with
    | '.' :: rest => (rest.takeWhile Char.isDigit, rest.dropWhile Char.isDigit)
    | rest => ([], rest)
  -- A point alone is not a number.
  if whole.isEmpty && fraction.isEmpty then none
  else (exponentPart? rest).map fun exponent =>
    ⟨Text.decimalValue (whole ++ fraction), exponent - fraction.length⟩

end Decimal

namespace Binary64

/-- The finite number nearest to an optionally signed numeral. -/
def ofNumeral? (text : List Char) : Option Binary64 :=
  let (negative, unsigned) :=
    match text with
    | '-' :: rest => (true, rest)
    | '+' :: rest => (false, rest)
    | rest => (false, rest)
  ((Decimal.ofNumeral? unsigned).map fun decimal =>
    ofDecimal negative decimal.significand decimal.exponent).filter isFinite

end Binary64

end Placeholder

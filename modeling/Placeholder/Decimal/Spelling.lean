import Placeholder.Decimal.Shortest

/-! Numbers are spelled from their shortest digits, by rules that each format chooses for itself. -/

namespace Placeholder

/-- The choices of a format that writes binary64 numbers in decimal. -/
structure Spelling where
  /-- Which of two equally near shortest decimals is written. -/
  tie : Decimal.Tie
  /-- Whether a number with this leading exponent is written without an exponent part. -/
  positional : Int → Bool
  /-- Whether a whole number in positional form ends in a point and a zero. -/
  pointKept : Bool
  /-- Whether a positive exponent carries a plus sign. -/
  plusWritten : Bool
  /-- The texts of not-a-number, positive infinity and negative infinity. -/
  special : String × String × String

namespace Spelling

/-- Digits with a decimal point put where the exponent of the last digit says. -/
def positionalText (spelling : Spelling) (digits : List Char) (exponent : Int) : List Char :=
  if 0 ≤ exponent then
    digits ++ List.replicate exponent.toNat '0' ++ if spelling.pointKept then ['.', '0'] else []
  else
    let places := (-exponent).toNat
    if places < digits.length then
      digits.take (digits.length - places) ++ '.' :: digits.drop (digits.length - places)
    else
      '0' :: '.' :: (List.replicate (places - digits.length) '0' ++ digits)

/-- Digits with a point after the first, followed by the exponent of the first. -/
def scientificText (spelling : Spelling) (digits : List Char) (leading : Int) : List Char :=
  let sign := if leading < 0 then ['-'] else if spelling.plusWritten then ['+'] else []
  let significand :=
    match digits with
    | [] | [_] => digits
    | first :: others => first :: '.' :: others
  significand ++ 'e' :: (sign ++ Text.decimalDigits leading.natAbs)

/-- The spelling of a magnitude, which is its shortest decimal. -/
def magnitudeText (spelling : Spelling) (units : Nat) : List Char :=
  if units = 0 then spelling.positionalText ['0'] 0
  else
    let decimal := Decimal.shortest spelling.tie units
    let digits := Text.decimalDigits decimal.significand
    let leading := decimal.exponent + digits.length - 1
    if spelling.positional leading then spelling.positionalText digits decimal.exponent
    else spelling.scientificText digits leading

/-- The spelling of a number. -/
def text (spelling : Spelling) : Binary64 → String
  | .nan => spelling.special.1
  | .infinity negative => if negative then spelling.special.2.2 else spelling.special.2.1
  | .finite negative units _ =>
    String.ofList ((if negative then ['-'] else []) ++ spelling.magnitudeText units)

/-- Plain text never has an exponent and shows whole numbers without a point. -/
def plain : Spelling :=
  ⟨.away, fun _ => true, false, false, "NaN", "inf", "-inf"⟩

/-- Leading exponents from minus five up to fifteen are written in positional form. -/
def moderate (leading : Int) : Bool :=
  -5 ≤ leading && leading < 16

/-- JSON keeps a point, signs every exponent and has only null for what is not finite. -/
def json : Spelling :=
  ⟨.even, moderate, true, true, "null", "null", "null"⟩

/-- YAML keeps a point, leaves plus signs out and has its own words for what is not finite. -/
def yaml : Spelling :=
  ⟨.even, moderate, true, false, ".nan", ".inf", "-.inf"⟩

end Spelling

end Placeholder

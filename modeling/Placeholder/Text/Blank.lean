/-! Blanks are the characters with the Unicode property `White_Space`, which trimming removes. -/

namespace Placeholder.Text

/-- The property `White_Space` holds of these ranges of code points, ends included. -/
def blankRanges : List (Nat × Nat) :=
  [(0x0009, 0x000D), (0x0020, 0x0020), (0x0085, 0x0085), (0x00A0, 0x00A0), (0x1680, 0x1680),
    (0x2000, 0x200A), (0x2028, 0x2029), (0x202F, 0x202F), (0x205F, 0x205F), (0x3000, 0x3000)]

/-- A blank is a character inside one of the ranges. -/
def isBlank (c : Char) : Bool :=
  blankRanges.any fun (first, last) => first ≤ c.toNat && c.toNat ≤ last

/-- Leading blanks are dropped. -/
def trimStart (text : List Char) : List Char :=
  text.dropWhile isBlank

/-- Trailing blanks are dropped. -/
def trimEnd (text : List Char) : List Char :=
  (text.reverse.dropWhile isBlank).reverse

/-- Blanks are dropped at both ends. -/
def trim (text : List Char) : List Char :=
  trimEnd (trimStart text)

end Placeholder.Text

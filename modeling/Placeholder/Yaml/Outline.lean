import Placeholder.Yaml.Character

/-! The outline of a scalar's text decides in which styles it can be written. -/

namespace Placeholder.Yaml

/-- What a writer has to know about a text that is not empty. -/
structure Outline where
  /-- Whether the text goes over several lines. -/
  multiline : Bool
  plainAllowed : Bool
  singleAllowed : Bool
  literalAllowed : Bool
deriving DecidableEq, Repr

/-- Characters that are written as they are. -/
def isPrintable (c : Char) : Bool :=
  let n := c.toNat
  n == 0x0A || (0x20 ≤ n && n ≤ 0x7E) || (0xA0 ≤ n && n ≤ 0xFFFD && n != 0xFEFF) || 0x10000 ≤ n

/-- Characters that mean something else at the start of a plain scalar. -/
def openingMarks : List Char :=
  "#,[]\x7b\x7d&*!|>'\"%@\x60".toList

/-- Whether a character means something else inside a plain scalar, given its neighbours. -/
def isMarkAt (previous : Option Char) (c : Char) (next : Option Char) : Bool :=
  let spaceAfter := endsToken next
  match previous with
  | none => openingMarks.contains c || (['?', ':', '-'].contains c && spaceAfter)
  | some before => (c == ':' && spaceAfter) || (c == '#' && isSpace before)

/-- Whether some character of a text means something else, given the character before it. -/
def hasMark (previous : Option Char) : List Char → Bool
  | [] => false
  | c :: rest => isMarkAt previous c rest.head? || hasMark (some c) rest

/-- Whether two characters of some classes stand next to each other. -/
def hasPair (isFirst isSecond : Char → Bool) : List Char → Bool
  | first :: second :: rest =>
    (isFirst first && isSecond second) || hasPair isFirst isSecond (second :: rest)
  | _ => false

/-- The outline of a text. -/
def Outline.ofText (text : List Char) : Outline :=
  let isBlank (c : Char) : Bool := c == ' '
  let multiline := text.any isBreak
  let delimited := text.take 3 == ['-', '-', '-'] || text.take 3 == ['.', '.', '.']
  let special := text.any (!isPrintable ·) || hasPair isBlank isBreak text
  let breakSpace := hasPair isBreak isBlank text
  let spaceAround := text.head?.any isBlank || text.getLast?.any isBlank
  { multiline
    plainAllowed :=
      !(spaceAround || multiline || special || delimited || hasMark none text)
    singleAllowed := !(special || breakSpace)
    literalAllowed := !(special || text.getLast?.any isBlank) }

end Placeholder.Yaml

/-! Classes of characters in YAML texts. -/

namespace Placeholder.Yaml

/-- Characters that a text may hold at all. -/
def isAllowed (c : Char) : Bool :=
  let n := c.toNat
  c == '\t' || c == '\n' || c == '\r' || (0x20 ≤ n && n ≤ 0x7E) || n == 0x85 ||
    (0xA0 ≤ n && n ≤ 0xFFFD) || 0x10000 ≤ n

/-- The mark that may start a line without being part of it. -/
def byteOrderMark : Char :=
  '\uFEFF'

/-- Characters that end a line. -/
def isBreak (c : Char) : Bool :=
  c == '\n' || c == '\r' || c == '\u0085' || c == '\u2028' || c == '\u2029'

/-- Spaces and tabs. -/
def isBlank (c : Char) : Bool :=
  c == ' ' || c == '\t'

/-- Characters that separate tokens. -/
def isSpace (c : Char) : Bool :=
  isBlank c || isBreak c

/-- Whether a token ends before this character, or before the end of the text. -/
def endsToken : Option Char → Bool
  | none => true
  | some c => isSpace c

/-- Characters of anchors, directive names and tag handles. -/
def isNameChar (c : Char) : Bool :=
  c.isAlphanum || c == '_' || c == '-'

/-- Characters of tags besides those of names. -/
def tagMarks : List Char :=
  ";/?:@&=+$.!~*'()".toList

/-- Characters of collections in flow style. -/
def flowMarks : List Char :=
  [',', '[', ']', '\x7b', '\x7d']

/-- Characters that no plain scalar starts with, the first three unless more follows them. -/
def indicators : List Char :=
  "-?:,[]\x7b\x7d#&*!|>'\"%@\x60".toList

end Placeholder.Yaml

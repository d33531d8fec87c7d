/-! Words are the runs of ASCII letters, digits and underscores that name opcodes and options. -/

namespace Placeholder.Text

/-- Letters, digits and underscores of ASCII may stand in a word. -/
def isWordChar (c : Char) : Bool :=
  c.isAlphanum || c == '_'

/-- A word is a non-empty run of word characters. -/
def isWord (text : List Char) : Bool :=
  !text.isEmpty && text.all isWordChar

end Placeholder.Text

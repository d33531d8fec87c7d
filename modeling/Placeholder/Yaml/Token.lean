/-! Tokens are the marks, names and scalars that a YAML text is made of. -/

namespace Placeholder.Yaml

/-- The ways of writing a scalar that its meaning depends on. -/
inductive Style where
  | plain
  | quoted
  | literal
  | folded
deriving DecidableEq, Repr

/-- A part of a YAML text, where the starts and ends of blocks come from the indentation. -/
inductive Token where
  | version (major minor : Nat)
  | tagPrefix (handle : String) (bytes : List UInt8)
  | documentStart
  | documentEnd
  | blockSequenceStart
  | blockMappingStart
  | blockEnd
  | flowSequenceStart
  | flowSequenceEnd
  | flowMappingStart
  | flowMappingEnd
  | blockEntry
  | flowEntry
  | key
  | value
  | alias (name : String)
  | anchor (name : String)
  | tag (handle : String) (bytes : List UInt8)
  | scalar (style : Style) (text : String)
  | streamEnd
deriving DecidableEq, Repr

end Placeholder.Yaml

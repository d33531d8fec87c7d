import Placeholder.Generator.Choice
import Placeholder.Generator.Identifier
import Placeholder.Generator.Moment
import Placeholder.Generator.Text

/-! The built-in generators, found by their names. -/

namespace Placeholder

/-- A generator produces a value from options and random words. -/
abbrev Generator :=
  Options → Draw Value

namespace Generator

/-- The names of the built-in generators with the generators themselves. -/
def builtins (clock : Clock) : List (String × Generator) :=
  [("integer", generateInteger), ("float", generateFloat), ("char", generateCharacter),
    ("string", generateString), ("boolean", generateBoolean),
    ("date", generateMoment clock datePattern), ("time", generateMoment clock timePattern),
    ("datetime", generateMoment clock dateTimePattern), ("uuid", generateIdentifier),
    ("pick", generatePick)]

/-- The built-in generator of a name. -/
def builtin? (clock : Clock) (name : String) : Option Generator :=
  (builtins clock).lookup name

end Generator

end Placeholder

import Placeholder.Arg

/-! Generators look options up by name first and then by position among the unnamed arguments. -/

namespace Placeholder

/-- The arguments given to a generator, in the order of the directive. -/
structure Options where
  args : List Arg
deriving DecidableEq, Repr

namespace Options

/-- The value of the last option of a given name. -/
def named? (options : Options) (name : String) : Option Arg :=
  (options.args.filterMap Arg.option?).reverse.lookup name

/-- The arguments that are no named options. -/
def positional (options : Options) : List Arg :=
  options.args.filter fun arg => arg.option?.isNone

/-- An option by name, or else by its position among the unnamed arguments. -/
def find? (options : Options) (name : String) (position : Nat) : Option Arg :=
  options.named? name <|> options.positional[position]?

/-- An option taken for an integer. -/
def integer? (options : Options) (name : String) (position : Nat) : Option Int64 :=
  (options.find? name position).bind Arg.integer?

/-- An option as text. -/
def text? (options : Options) (name : String) (position : Nat) : Option String :=
  (options.find? name position).map Arg.toText

end Options

end Placeholder

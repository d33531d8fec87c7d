import Placeholder.Options
import Placeholder.Random.Draw
import Placeholder.Value

/-! Truth values and members of lists are chosen. -/

namespace Placeholder.Generator

/-- A fair coin, which shows true for fractions of at least a half. -/
def boolean : Draw Bool := do
  return (← Draw.fraction).atLeast (Binary64.one / Binary64.ofInt 2)

/-- One of some values, or null without a draw when there are none. -/
def oneOf (values : List Value) : Draw Value := do
  if values.isEmpty then return .null
  let position ← Draw.index values.length
  return values.getD position .null

/-- The generator `boolean`. -/
def generateBoolean (_ : Options) : Draw Value := do
  return .bool (← boolean)

/-- The generator `pick`, which chooses among all its arguments. -/
def generatePick (options : Options) : Draw Value :=
  oneOf (options.args.map Value.ofArg)

end Placeholder.Generator

import Placeholder.Generator.Choice
import Placeholder.Generator.Identifier
import Placeholder.Generator.Number
import Placeholder.Recipe
import Placeholder.Value.OfYaml

/-! Recipes are carried out by the same draws as the built-in generators. -/

namespace Placeholder.Recipe

/-- A bound that is finite, or else a given one. -/
def finiteOr (fallback bound : Binary64) : Binary64 :=
  if bound.isFinite then bound else fallback

/-- A weight as a probability, where not-a-number is an even chance. -/
def probability (weight : Binary64) : Binary64 :=
  if weight.isNaN then Binary64.one / Binary64.ofInt 2 else weight.clamp .zero .one

/-- The value that a recipe produces. -/
def generate : Recipe → Draw Value
  | .uuid => return .string (← Generator.identifier)
  | .intRange min max => return .int (← Generator.integer (some min) (some max))
  | .floatRange min max =>
    return .float (← Generator.float (finiteOr .zero min) (finiteOr .one max) none)
  | .weightedBool weight => return .bool (← Draw.chance (probability weight))
  | .oneOf choices => Generator.oneOf (choices.map Value.ofYaml)
  | .static datum => return Value.ofYaml datum
  | .null => return .null

end Placeholder.Recipe

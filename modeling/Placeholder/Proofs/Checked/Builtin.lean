import Placeholder.Proofs.Association
import Placeholder.Proofs.Checked.Generator
import Placeholder.Proofs.Checked.Pattern

/-! The built-in generators and the recipes draw by checked operations, and none of them fails. -/

namespace Placeholder

/-- A generator produces a value from options and random words, unless it fails. -/
abbrev CheckedGenerator :=
  Options → CheckedDraw Value

namespace Checked

/-- A generator of which every operation has a result. -/
def unfailing (generator : Generator) : CheckedGenerator :=
  fun options => (generator options).checked

/-- The generator `integer`, with the options `min` and `max`. -/
def generateInteger : CheckedGenerator := fun options => do
  return .int (← integer (← integer? options "min" 0) (← integer? options "max" 1))

/-- The generator `float`, with the options `min`, `max` and `decimals`. -/
def generateFloat : CheckedGenerator := fun options => do
  let min := (← floatBound? options "min" 0).getD .zero
  let max := (← floatBound? options "max" 1).getD .one
  return .float (← float min max (some (← decimalPlaces options)))

/-- The generator `char`. -/
def generateCharacter : CheckedGenerator := fun _ => do
  return .string (String.singleton (← character))

/-- The generator `string`, with the options `min`, `max` and `len`. -/
def generateString : CheckedGenerator := fun options => do
  let length ←
    stringLength (← integer? options "min" 0) (← integer? options "max" 1)
      (← integer? options "len" 2)
  return .string (← string length)

/-- The generator `boolean`. -/
def generateBoolean : CheckedGenerator := fun _ => do
  return .bool (← Generator.boolean.checked)

/-- A generator of moments, with the option `format` in place of its own pattern. -/
def generateMoment (clock : Clock) (ownPattern : String) : CheckedGenerator := fun options => do
  let pattern := (← text? options "format" 0).getD ownPattern
  let instant ← (Generator.instantBefore clock.now).checked
  return .string (← format pattern (instant.at clock.offset))

/-- The generator `uuid`. -/
def generateIdentifier : CheckedGenerator := fun _ => do
  return .string (← identifier)

/-- The generator `pick`, which chooses among all its arguments. -/
def generatePick : CheckedGenerator := fun options =>
  oneOf options.args Value.ofArg

/-- The names of the built-in generators with the generators themselves. -/
def builtins (clock : Clock) : List (String × CheckedGenerator) :=
  [("integer", generateInteger), ("float", generateFloat), ("char", generateCharacter),
    ("string", generateString), ("boolean", generateBoolean),
    ("date", generateMoment clock Generator.datePattern),
    ("time", generateMoment clock Generator.timePattern),
    ("datetime", generateMoment clock Generator.dateTimePattern), ("uuid", generateIdentifier),
    ("pick", generatePick)]

/-- A weight as a probability, where not-a-number is an even chance. -/
def probability (weight : Binary64) : Checked Binary64 :=
  if weight.isNaN then return Binary64.one / Binary64.ofInt 2 else clampNumber weight .zero .one

/-- The value that a recipe produces. -/
def generate : Recipe → CheckedDraw Value
  | .uuid => return .string (← identifier)
  | .intRange min max => return .int (← integer (some min) (some max))
  | .floatRange min max =>
    return .float (← float (Recipe.finiteOr .zero min) (Recipe.finiteOr .one max) none)
  | .weightedBool weight => do return .bool (← chance (← probability weight))
  | .oneOf choices => oneOf choices Value.ofYaml
  | .static datum => return Value.ofYaml datum
  | .null => return .null

/-- Integers are generated without a fault. -/
theorem generateInteger_eq : generateInteger = unfailing Generator.generateInteger := by
  funext options
  unfold generateInteger
  rw [integer?_eq, Draw.liftM_ok, pure_bind, integer?_eq, Draw.liftM_ok, pure_bind, integer_eq]
  rfl

/-- A bound of floats that is left out or read is no not-a-number. -/
theorem isNaN_bound {fallback : Binary64} (number : fallback.isNaN = false) (options : Options)
    (name : String) (position : Nat) :
    ((Generator.floatBound? options name position).getD fallback).isNaN = false := by
  cases found : Generator.floatBound? options name position with
  | none => exact number
  | some bound => exact Binary64.isNaN_of_isFinite (Generator.isFinite_of_floatBound? found)

/-- Floats are generated without a fault. -/
theorem generateFloat_eq : generateFloat = unfailing Generator.generateFloat := by
  funext options
  unfold generateFloat
  have few : ∀ count ∈ some (Generator.decimalPlaces options), count.toNat ≤ 10 := by
    rintro count ⟨rfl⟩
    exact Generator.decimalPlaces_le options
  rw [floatBound?_eq, Draw.liftM_ok, pure_bind, floatBound?_eq, Draw.liftM_ok, pure_bind,
    decimalPlaces_eq, Draw.liftM_ok, pure_bind, float_eq (isNaN_bound rfl options _ _) _ few]
  rfl

/-- Characters are generated without a fault. -/
theorem generateCharacter_eq : generateCharacter = unfailing Generator.generateCharacter := by
  funext options
  unfold generateCharacter
  rw [character_eq]
  rfl

/-- Strings are generated without a fault. -/
theorem generateString_eq : generateString = unfailing Generator.generateString := by
  funext options
  unfold generateString
  rw [integer?_eq, Draw.liftM_ok, pure_bind, integer?_eq, Draw.liftM_ok, pure_bind,
    integer?_eq, Draw.liftM_ok, pure_bind, stringLength_eq]
  simp only [string_eq]
  rfl

/-- Moments are generated without a fault. -/
theorem generateMoment_eq (clock : Clock) (ownPattern : String) :
    generateMoment clock ownPattern = unfailing (Generator.generateMoment clock ownPattern) := by
  funext options
  unfold generateMoment
  rw [text?_eq, Draw.liftM_ok, pure_bind]
  simp only [format_eq]
  rfl

/-- Identifiers are generated without a fault. -/
theorem generateIdentifier_eq : generateIdentifier = unfailing Generator.generateIdentifier := by
  funext options
  unfold generateIdentifier
  rw [identifier_eq]
  rfl

/-- Arguments are picked without a fault. -/
theorem generatePick_eq : generatePick = unfailing Generator.generatePick := by
  funext options
  exact oneOf_eq options.args Value.ofArg

/-- Each built-in generator is the one that never fails. -/
theorem builtins_eq (clock : Clock) :
    builtins clock = (Generator.builtins clock).map fun entry => (entry.1, unfailing entry.2) := by
  unfold builtins Generator.builtins
  rw [generateInteger_eq, generateFloat_eq, generateCharacter_eq, generateString_eq,
    generateMoment_eq, generateMoment_eq, generateMoment_eq, generateIdentifier_eq,
    generatePick_eq]
  rfl

/-- Weights are held between zero and one without a fault. -/
theorem probability_eq (weight : Binary64) :
    probability weight = .ok (Recipe.probability weight) := by
  unfold probability Recipe.probability
  split
  · rfl
  · exact clampNumber_of_atLeast Binary64.one_atLeast_zero weight

/-- Recipes are carried out without a fault, whatever their bounds, weights and choices are. -/
theorem generate_eq (recipe : Recipe) : generate recipe = recipe.generate.checked := by
  cases recipe with
  | uuid =>
    rw [generate, identifier_eq]
    rfl
  | intRange min max =>
    rw [generate, integer_eq]
    rfl
  | floatRange min max =>
    have number := Binary64.isNaN_of_isFinite
      (Recipe.isFinite_finiteOr (show Binary64.zero.isFinite = true from rfl) min)
    rw [generate, float_eq number _ (by simp)]
    rfl
  | weightedBool weight =>
    obtain ⟨low, high⟩ := Recipe.probability_between weight
    rw [generate, probability_eq, Draw.liftM_ok, pure_bind, chance_of_between low high]
    rfl
  | oneOf choices => exact oneOf_eq choices Value.ofYaml
  | static datum => rfl
  | null => rfl

end Checked

end Placeholder

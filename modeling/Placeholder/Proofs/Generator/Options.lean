import Placeholder.Generator.Builtin
import Placeholder.Proofs.Options.Naming

/-! The built-in generators read no arguments but the options they have names for. -/

namespace Placeholder.Generator

/-- The built-in generators with options, whose names stand in the order of their positions. -/
def optionNames : List (String × List String) :=
  [("integer", ["min", "max"]), ("float", ["min", "max", "decimals"]),
    ("string", ["min", "max", "len"]), ("date", ["format"]), ("time", ["format"]),
    ("datetime", ["format"])]

/-- A generator reads names alone when it draws the same from options that agree on them. -/
def Reads (generator : Generator) (names : List String) : Prop :=
  ∀ left right : Options, left.AgreeOn names right → generator left = generator right

/-- Integers depend on their bounds. -/
theorem generateInteger_reads : Reads generateInteger ["min", "max"] := by
  -- Each option is looked up once, under its name and at its own position.
  intro left right agree
  have min := agree 0 "min" rfl
  have max := agree 1 "max" rfl
  simp only [generateInteger, Options.integer?, min, max]

/-- Floats depend on their bounds and decimal places. -/
theorem generateFloat_reads : Reads generateFloat ["min", "max", "decimals"] := by
  -- The bounds are read as texts and the decimal places as an integer, from the same lookups.
  intro left right agree
  have min := agree 0 "min" rfl
  have max := agree 1 "max" rfl
  have decimals := agree 2 "decimals" rfl
  simp only [generateFloat, floatBound?, decimalPlaces, Options.text?, Options.integer?, min, max,
    decimals]

/-- Strings depend on the bounds of their length and on the length itself. -/
theorem generateString_reads : Reads generateString ["min", "max", "len"] := by
  -- The options decide the length, and the characters are drawn without them.
  intro left right agree
  have min := agree 0 "min" rfl
  have max := agree 1 "max" rfl
  have length := agree 2 "len" rfl
  simp only [generateString, Options.integer?, min, max, length]

/-- Moments depend on their pattern, whatever the time and the default pattern. -/
theorem generateMoment_reads (clock : Clock) (ownPattern : String) :
    Reads (generateMoment clock ownPattern) ["format"] := by
  -- The instant is drawn without a look at the options.
  intro left right agree
  have format := agree 0 "format" rfl
  simp only [generateMoment, Options.text?, format]

/-- Each generator that has options is built in under a word and reads its distinct names alone. -/
theorem builtin?_reads (clock : Clock) {opcode : String} {names : List String}
    (listed : (opcode, names) ∈ optionNames) :
    Text.isWord opcode.toList = true ∧ names.Nodup ∧
      ∃ generator, builtin? clock opcode = some generator ∧ Reads generator names := by
  -- The list names one generator after another, and each has its own law above.
  simp only [optionNames, List.mem_cons, List.not_mem_nil, or_false, Prod.mk.injEq] at listed
  rcases listed with ⟨rfl, rfl⟩ | ⟨rfl, rfl⟩ | ⟨rfl, rfl⟩ | ⟨rfl, rfl⟩ | ⟨rfl, rfl⟩ | ⟨rfl, rfl⟩
  · exact ⟨by decide, by decide, _, rfl, generateInteger_reads⟩
  · exact ⟨by decide, by decide, _, rfl, generateFloat_reads⟩
  · exact ⟨by decide, by decide, _, rfl, generateString_reads⟩
  · exact ⟨by decide, by decide, _, rfl, generateMoment_reads clock datePattern⟩
  · exact ⟨by decide, by decide, _, rfl, generateMoment_reads clock timePattern⟩
  · exact ⟨by decide, by decide, _, rfl, generateMoment_reads clock dateTimePattern⟩

end Placeholder.Generator

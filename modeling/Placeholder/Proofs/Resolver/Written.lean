import Placeholder.Proofs.Arg.Written
import Placeholder.Proofs.Calendar.Format
import Placeholder.Proofs.Generator.Floats
import Placeholder.Proofs.Resolver.Forms

/-! Options whose values are texts are used as they are written, apart from runs of digits. -/

namespace Placeholder

namespace Options

open Directive (pairText PlainPair)

/-- A named text is the text of the last pair of its name as it is used. -/
theorem text?_pairs {pairs : List (String × String)} (plain : ∀ pair ∈ pairs, PlainPair pair)
    (name : String) (position : Nat) :
    text? ⟨pairs.map fun pair => .text (pairText pair)⟩ name position =
      (pairs.reverse.lookup name).map Arg.usedText := by
  rw [text?, find?_pairs plain, Option.map_map]
  exact congrArg (Option.map · _) (funext Arg.toText_classify)

end Options

namespace Generator

open Directive (pairText PlainPair)

/-- The opcodes of moments. -/
def momentOpcodes : List String :=
  ["date", "time", "datetime"]

/-- Moments are found under their opcodes, which are words. -/
theorem builtin?_moment (clock : Clock) {opcode : String} (listed : opcode ∈ momentOpcodes) :
    Text.isWord opcode.toList = true ∧
      ∃ ownPattern, builtin? clock opcode = some (generateMoment clock ownPattern) := by
  simp only [momentOpcodes, List.mem_cons, List.not_mem_nil, or_false] at listed
  rcases listed with rfl | rfl | rfl
  · exact ⟨by decide, datePattern, rfl⟩
  · exact ⟨by decide, timePattern, rfl⟩
  · exact ⟨by decide, dateTimePattern, rfl⟩

/-- A moment is a drawn instant in the pattern that is given. -/
theorem generateMoment_of_text? {clock : Clock} {ownPattern pattern : String} {options : Options}
    (given : options.text? "format" 0 = some pattern) :
    generateMoment clock ownPattern options =
      (fun instant => .string (Calendar.Pattern.format pattern (instant.at clock.offset))) <$>
        instantBefore clock.now := by
  rw [generateMoment, given, ← bind_pure_comp]
  rfl

/-- A float is drawn between bounds that are given. -/
theorem generateFloat_of_bounds {options : Options} {min max : Binary64}
    (minGiven : floatBound? options "min" 0 = some min)
    (maxGiven : floatBound? options "max" 1 = some max) :
    generateFloat options =
      Value.float <$> float min max (some (decimalPlaces options)) := by
  rw [generateFloat_eq_float, minGiven, maxGiven, Option.getD_some, Option.getD_some]

/-- A bound that was read as a number is read as the same number once it is used. -/
theorem ofNumeral?_usedText {text : String} {bound : Binary64}
    (read : Binary64.ofNumeral? (Text.trim text.toList) = some bound) :
    Binary64.ofNumeral? (Text.trim (Arg.usedText text).toList) =
      some (if Arg.Beyond text then .ofInt64 Int64.maxValue else bound) := by
  cases digits : Text.isDigits text.toList with
  | false =>
    have within : ¬ Arg.Beyond text := fun beyond => by simp [Arg.Beyond, digits] at beyond
    rw [Arg.usedText_of_not_digits digits, if_neg within, read]
  | true =>
    -- Among digits only the value counts, which is changed only when it is too large.
    rw [Text.trim_digits digits, Binary64.ofNumeral?_digits digits] at read
    rw [Arg.usedText, if_pos digits, String.toList_ofList,
      Text.trim_digits (Text.isDigits_decimalDigits _),
      Binary64.ofNumeral?_digits (Text.isDigits_decimalDigits _), Text.decimalValue_decimalDigits]
    by_cases beyond : Arg.Beyond text
    · have large := beyond.2
      rw [if_pos beyond, Nat.min_eq_right (by omega)]
      decide +kernel
    · have small : ¬ Int64.maxValue.toInt < Text.decimalValue text.toList :=
        fun large => beyond ⟨digits, large⟩
      rw [if_neg beyond, Nat.min_eq_left (by omega), read]

end Generator

namespace Resolver

open Calendar (Pattern.format)
open Directive (callText pairText PlainPair)
open Generator (momentOpcodes instantBefore)

/-- A moment with a pattern of its own is a drawn instant in the pattern as it is used. -/
theorem answers_format (resolver : Resolver) (source : Source) {opcode pattern : String}
    (listed : opcode ∈ momentOpcodes) (plain : PlainPair ("format", pattern)) :
    let drawn := (instantBefore resolver.clock.now).run source
    let shown := Value.string
      (Pattern.format (Arg.usedText pattern) (drawn.1.at resolver.clock.offset))
    (resolver.resolve (callText opcode [pairText ("format", pattern)])).run source =
        (some shown, drawn.2) ∧
      (resolver.mock (callText opcode [pairText ("format", pattern)])).run source =
        (some shown, drawn.2) := by
  obtain ⟨word, ownPattern, known⟩ := Generator.builtin?_moment resolver.clock listed
  have plains : ∀ pair ∈ [("format", pattern)], PlainPair pair := by simpa using plain
  have answered := answers_of_ofCall? resolver (Directive.ofCall?_pairs word plains)
  have given := Options.text?_pairs plains "format" 0
  -- What is invoked is a map of the drawn instant, so that both draw the same words.
  have invoked := invoke_builtin resolver known
    ([("format", pattern)].map fun pair => .text (pairText pair))
  rw [Generator.generateMoment_of_text? given] at invoked
  have called := congrArg (StateT.run · source) invoked
  dsimp only at called ⊢
  rw [Draw.run_map, Draw.run_map] at called
  exact ⟨(congrArg (StateT.run · source) answered.1).trans called,
    (congrArg (StateT.run · source) answered.2).trans called⟩

/-- A float whose two bounds are the same text equals the number that the text is read as. -/
theorem answers_bounds (resolver : Resolver) (source : Source) {text : String} {bound : Binary64}
    (plain : PlainPair ("min", text))
    (read : Binary64.ofNumeral? (Text.trim text.toList) = some bound) :
    ∃ value later,
      (resolver.resolve (callText "float" [pairText ("min", text), pairText ("max", text)])).run
          source = (some (.float value), later) ∧
        (resolver.mock (callText "float" [pairText ("min", text), pairText ("max", text)])).run
          source = (some (.float value), later) ∧
        value.equal (if Arg.Beyond text then .ofInt64 Int64.maxValue else bound) = true := by
  have plains : ∀ pair ∈ [("min", text), ("max", text)], PlainPair pair := by
    have word : Text.isWord "max".toList = true := by decide
    simpa using ⟨plain, ⟨word, plain.comma, plain.line⟩⟩
  have answered := answers_of_ofCall? resolver
    (@Directive.ofCall?_pairs "float" _ (by decide) plains)
  have used := Generator.ofNumeral?_usedText read
  generalize (if Arg.Beyond text then Binary64.ofInt64 Int64.maxValue else bound) = bound at used ⊢
  -- Both bounds are read from the same text, so they are the same number.
  let options : Options := ⟨[("min", text), ("max", text)].map fun pair => .text (pairText pair)⟩
  have lookups : ([("min", text), ("max", text)].reverse.lookup "min") = some text ∧
      ([("min", text), ("max", text)].reverse.lookup "max") = some text := ⟨rfl, rfl⟩
  have min : Generator.floatBound? options "min" 0 = some bound := by
    rw [Generator.floatBound?, Options.text?_pairs plains, lookups.1, Option.map_some,
      Option.bind_some, used]
  have max : Generator.floatBound? options "max" 1 = some bound := by
    rw [Generator.floatBound?, Options.text?_pairs plains, lookups.2, Option.map_some,
      Option.bind_some, used]
  have invoked := @invoke_builtin resolver "float" _ rfl options.args
  rw [Generator.generateFloat_of_bounds min max] at invoked
  have called := congrArg (StateT.run · source) invoked
  rw [Draw.run_map, Draw.run_map] at called
  have finite := Generator.isFinite_of_floatBound? min
  refine ⟨_, _, (congrArg (StateT.run · source) answered.1).trans called,
    (congrArg (StateT.run · source) answered.2).trans called, ?_⟩
  exact Generator.float_self (Generator.decimalPlaces_le options) finite source

/--
Texts that are values of options are used as they are written, apart from runs of digits.

A run of digits stands for its value without leading zeros, which is held to the machine integers.
Any text without comma and line feed is the pattern of moments in that sense, and a float between
equal bounds is the number that the text is read as, unless that is a run of digits for a number
beyond the machine integers.
-/
theorem text_options_used_as_read (resolver : Resolver) (source : Source) {text : String}
    (comma : ',' ∉ text.toList) (line : '\n' ∉ text.toList) :
    (∀ opcode ∈ momentOpcodes,
      let drawn := (instantBefore resolver.clock.now).run source
      let shown := Value.string
        (Pattern.format (Arg.usedText text) (drawn.1.at resolver.clock.offset))
      (resolver.resolve (callText opcode [pairText ("format", text)])).run source =
          (some shown, drawn.2) ∧
        (resolver.mock (callText opcode [pairText ("format", text)])).run source =
          (some shown, drawn.2)) ∧
    ∀ bound, Binary64.ofNumeral? (Text.trim text.toList) = some bound →
      ∃ value later,
        (resolver.resolve (callText "float" [pairText ("min", text), pairText ("max", text)])).run
            source = (some (.float value), later) ∧
          (resolver.mock (callText "float" [pairText ("min", text), pairText ("max", text)])).run
            source = (some (.float value), later) ∧
          value.equal (if Arg.Beyond text then .ofInt64 Int64.maxValue else bound) = true := by
  have word : ∀ name, Text.isWord name.toList = true → PlainPair (name, text) :=
    fun _ word => ⟨word, comma, line⟩
  refine ⟨fun opcode listed => ?_, fun bound read => ?_⟩
  · exact answers_format resolver source listed (word "format" (by decide))
  · exact answers_bounds resolver source (word "min" (by decide)) read

/-- A number just beyond the machine integers is held to the last of them. -/
theorem oversized_digits_are_held :
    (((Resolver.mk ⟨0, 0⟩ .builtins).resolve "@time(format=9223372036854775808)").run
        (Source.ofTape #[] 0)).1 =
      some (.string (Pattern.format "9223372036854775807"
        (((instantBefore 0).run (Source.ofTape #[] 0)).1.at 0))) := by
  have answered := (@text_options_used_as_read ⟨⟨0, 0⟩, .builtins⟩ (Source.ofTape #[] 0)
    "9223372036854775808" (by decide) (by decide)).1 "time" (by decide)
  exact congrArg Prod.fst answered.1

/-- Zeros in front of a pattern of digits are not shown, although the pattern would show them. -/
theorem padded_digits_shown_without_zeros :
    (((Resolver.mk ⟨0, 0⟩ .builtins).resolve "@date(format=007)").run (Source.ofTape #[] 0)).1 ≠
      some (.string (Pattern.format "007"
        (((instantBefore 0).run (Source.ofTape #[] 0)).1.at 0))) := by
  have answered := (@answers_format ⟨⟨0, 0⟩, .builtins⟩ (Source.ofTape #[] 0) "date" "007"
    (by decide) (by decide)).1
  -- Neither pattern holds a token, so both are shown as they are.
  have padded : Calendar.Pattern.segments ['0', '0', '7'] =
      [.literal ['0'], .literal ['0'], .literal ['7']] := by
    decide +kernel
  have bare : Calendar.Pattern.segments ['7'] = [.literal ['7']] := by
    decide +kernel
  have used : Arg.usedText "007" = "7" := by
    decide
  have shown : ∀ time, Pattern.format "7" time ≠ Pattern.format "007" time := by
    intro time
    simp [Pattern.format, Calendar.Pattern.format?_pattern, padded, bare,
      Calendar.Pattern.Segment.text]
  rw [used] at answered
  intro same
  have claimed := (congrArg Prod.fst answered).symm.trans same
  exact shown _ (Value.string.inj (Option.some.inj claimed))

end Resolver

end Placeholder

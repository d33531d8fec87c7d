import Placeholder.Generator.Declared
import Placeholder.Proofs.Integer
import Placeholder.Proofs.Random.Reaching
import Placeholder.Proofs.Resolver.Forms

/-! Choices are made among all the items of a list, each of which some words choose. -/

namespace Placeholder

/-- A draw is the item at a drawn index, and every item is drawn from some words. -/
structure Draw.Chooses {α : Type} (draw : Draw α) (items : List α) : Prop where
  inside : ∀ source, ∃ position, ∃ within : position < items.length,
    ((Draw.index items.length).run source).1 = position ∧ (draw.run source).1 = items[position]
  reached : ∀ position, ∀ within : position < items.length, ∀ drawn, ∃ words,
    (draw.run ⟨words, drawn⟩).1 = items[position]

namespace Generator

variable {values : List Value}

/-- The value at a drawn index is chosen. -/
theorem run_oneOf {position : Nat} (within : position < values.length) {source : Source}
    (drawn : ((Draw.index values.length).run source).1 = position) :
    ((oneOf values).run source).1 = values[position] := by
  -- Only a list without values is answered without a draw.
  have some : values.isEmpty = false := by
    rw [List.isEmpty_eq_false_iff]
    exact List.ne_nil_of_length_pos (Nat.zero_lt_of_lt within)
  have found : values.getD position .null = values[position] := by simp [within]
  rw [← found, ← drawn]
  unfold oneOf
  rw [some]
  rfl

/-- Values are chosen from a list, and none of them is out of reach. -/
theorem oneOf_chooses (filled : values ≠ []) (few : values.length < UInt32.size) :
    (oneOf values).Chooses values where
  inside source := by
    -- An index is never past the end, so the value in place of a missing one is never taken.
    have within := Draw.index_lt (List.length_pos_iff.mpr filled) source
    exact ⟨_, within, rfl, run_oneOf within rfl⟩
  reached position within drawn := by
    -- The words that reach the position choose the value at it.
    have fits : values.length ≤ UInt64.size := Nat.le_trans (Nat.le_of_lt few) (by decide)
    obtain ⟨words, reached⟩ := Draw.exists_run_index fits within drawn
    exact ⟨words, run_oneOf within reached⟩

end Generator

namespace Resolver

open Directive (callText)

/-- What a segment of a call is as a value: digits are a number held to its limit, others a text. -/
inductive StandsFor (segment : String) : Value → Prop where
  | text (other : Text.isDigits segment.toList = false) : StandsFor segment (.string segment)
  | number (digits : Text.isDigits segment.toList = true) {value : Int64}
    (held : value.toInt = min (Text.decimalValue segment.toList : Int) Int64.maxValue.toInt) :
    StandsFor segment (.int value)

/-- A classified segment is the value that the segment stands for. -/
theorem standsFor_classify (segment : String) :
    StandsFor segment (Value.ofArg (Arg.classify segment)) := by
  unfold Arg.classify
  split
  · rename_i digits
    -- A run of digits writes no negative number, so only the upper limit can be met.
    refine .number digits ?_
    rw [Integer.toInt_saturate, Int64.toInt_minValue, Int64.toInt_maxValue]
    omega
  · rename_i other
    exact .text (by simpa using other)

section

variable (resolver : Resolver) {segments : List String} (clean : ∀ segment ∈ segments,
  segment ≠ "" ∧ ',' ∉ segment.toList ∧ '\n' ∉ segment.toList)

include clean

/-- A call of `pick` is answered by a choice among its segments. -/
theorem answers_pick (source : Source) :
    let chosen := ((Generator.oneOf
      (segments.map fun segment => Value.ofArg (Arg.classify segment))).run source).1
    ((resolver.resolve (callText "pick" segments)).run source).1 = some chosen ∧
      ((resolver.mock (callText "pick" segments)).run source).1 = some chosen := by
  have called := @Directive.ofCall?_callText "pick" segments (by decide) clean
  obtain ⟨resolved, mocked⟩ := answers_of_ofCall? resolver called
  -- Named options are not set aside here, since all arguments are choices.
  have invoked := @invoke_builtin resolver "pick" _ rfl (segments.map Arg.classify)
  rw [resolved, mocked, invoked, Draw.run_map, Generator.generatePick, List.map_map]
  exact ⟨rfl, rfl⟩

/-- The answer to `pick` is what the segment at the drawn index stands for. -/
theorem answers_pick_at {position : Nat} (within : position < segments.length) {source : Source}
    (drawn : ((Draw.index segments.length).run source).1 = position) :
    ∃ value, StandsFor segments[position] value ∧
      ((resolver.resolve (callText "pick" segments)).run source).1 = some value ∧
      ((resolver.mock (callText "pick" segments)).run source).1 = some value := by
  have answered := answers_pick resolver clean source
  -- There are as many values to choose from as segments.
  have chosen := @Generator.run_oneOf
    (segments.map fun segment => Value.ofArg (Arg.classify segment)) position
    (by rwa [List.length_map]) source (by rwa [List.length_map])
  rw [List.getElem_map] at chosen
  dsimp only at answered
  rw [chosen] at answered
  exact ⟨_, standsFor_classify _, answered⟩

/-- An answer to `pick` is what one of the segments stands for. -/
theorem answers_pick_inside (filled : segments ≠ []) (source : Source) :
    ∃ segment ∈ segments, ∃ value, StandsFor segment value ∧
      ((resolver.resolve (callText "pick" segments)).run source).1 = some value ∧
      ((resolver.mock (callText "pick" segments)).run source).1 = some value := by
  -- Whatever index is drawn, a segment is there.
  have within := Draw.index_lt (List.length_pos_iff.mpr filled) source
  exact ⟨_, List.getElem_mem within, answers_pick_at resolver clean within rfl⟩

/-- What any segment stands for is the answer to `pick` for some words. -/
theorem answers_pick_reached (few : segments.length < UInt32.size) {position : Nat}
    (within : position < segments.length) (drawn : Nat) :
    ∃ words value, StandsFor segments[position] value ∧
      ((resolver.resolve (callText "pick" segments)).run ⟨words, drawn⟩).1 = some value ∧
      ((resolver.mock (callText "pick" segments)).run ⟨words, drawn⟩).1 = some value := by
  have fits : segments.length ≤ UInt64.size := Nat.le_trans (Nat.le_of_lt few) (by decide)
  -- Every index is drawn from some words, those of the segment among them.
  obtain ⟨words, reached⟩ := Draw.exists_run_index fits within drawn
  exact ⟨words, answers_pick_at resolver clean within reached⟩

end

/--
A choice is made among all the items, at an index that never lies beyond the last of them.

It holds of the arguments of `pick`, named options included, and of the values of a recipe. A call
of `pick` is answered by what one of its segments stands for, which is the segment's own text
unless it is a run of digits. Each item is chosen for some words, wherever the source stands.
-/
theorem choices_reach_every_item :
    (∀ options : Options, options.args ≠ [] → options.args.length < UInt32.size →
      (Generator.generatePick options).Chooses (options.args.map Value.ofArg)) ∧
    (∀ choices : List Yaml.Datum, choices ≠ [] → choices.length < UInt32.size →
      (Recipe.oneOf choices).generate.Chooses (choices.map Value.ofYaml)) ∧
    ∀ (resolver : Resolver) (segments : List String), segments ≠ [] →
      (∀ segment ∈ segments, segment ≠ "" ∧ ',' ∉ segment.toList ∧ '\n' ∉ segment.toList) →
      (∀ source, ∃ segment ∈ segments, ∃ value, StandsFor segment value ∧
        ((resolver.resolve (callText "pick" segments)).run source).1 = some value ∧
        ((resolver.mock (callText "pick" segments)).run source).1 = some value) ∧
      (segments.length < UInt32.size → ∀ position, ∀ within : position < segments.length,
        ∀ drawn, ∃ words value, StandsFor segments[position] value ∧
          ((resolver.resolve (callText "pick" segments)).run ⟨words, drawn⟩).1 = some value ∧
          ((resolver.mock (callText "pick" segments)).run ⟨words, drawn⟩).1 = some value) := by
  refine ⟨fun options filled few => ?_, fun choices filled few => ?_,
    fun resolver segments filled clean => ⟨answers_pick_inside resolver clean filled,
      fun few position within => answers_pick_reached resolver clean few within⟩⟩
  · exact Generator.oneOf_chooses (by simpa using filled) (by rwa [List.length_map])
  · exact Generator.oneOf_chooses (by simpa using filled) (by rwa [List.length_map])

/-- A pair and an oversized run of digits are chosen from, each for some words. -/
theorem pair_and_digits_are_picked :
    (Generator.generatePick ⟨[.text "a=1", .number 7]⟩).Chooses [.string "a=1", .int 7] ∧
    (Recipe.oneOf [.null]).generate.Chooses [Value.ofYaml .null] ∧
    ∃ words value, StandsFor "99999999999999999999" value ∧
      (((Resolver.mk ⟨0, 0⟩ .builtins).resolve "@pick(a=1,99999999999999999999)").run
        ⟨words, 0⟩).1 = some value := by
  obtain ⟨picks, recipes, answers⟩ := choices_reach_every_item
  have reached := (answers ⟨⟨0, 0⟩, .builtins⟩ ["a=1", "99999999999999999999"] (by decide)
    (by decide)).2 (by decide) 1 (by decide) 0
  obtain ⟨words, value, stands, resolved, -⟩ := reached
  exact ⟨picks ⟨[.text "a=1", .number 7]⟩ (by decide) (by decide),
    recipes [.null] (by simp) (by decide), words, value, stands, resolved⟩

end Resolver

end Placeholder

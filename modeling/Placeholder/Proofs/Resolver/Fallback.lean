import Placeholder.Proofs.Resolver.Outcome

/-! The fallback decides about the opcodes that are not built in, and about nothing else. -/

namespace Placeholder

/-- A second registry asks the built-in generators once more, in any places of the first one. -/
inductive Registry.Readded : Registry → Registry → Prop where
  | same (registry : Registry) : Readded registry registry
  | before {registry readded : Registry} (inside : Readded registry readded) :
    Readded registry (.layered .builtins readded)
  | behind {registry readded : Registry} (inside : Readded registry readded) :
    Readded registry (.layered readded .builtins)
  | layered {primary fallback readdedPrimary readdedFallback : Registry}
    (first : Readded primary readdedPrimary) (second : Readded fallback readdedFallback) :
    Readded (.layered primary fallback) (.layered readdedPrimary readdedFallback)

namespace Registry

/-- Layers are asked in order, so it makes no difference how they are put together. -/
theorem lookup_layered_assoc (first second third : Registry) (clock : Clock) (name : String) :
    (layered (layered first second) third).lookup clock name =
      (layered first (layered second third)).lookup clock name := by
  -- Either way the third layer is asked when the first two have no answer.
  simp only [lookup, Option.orElse_eq_orElse, Option.orElse_eq_or, Option.or_assoc]

/-- Built-in generators that are asked once more answer for built-in names only. -/
theorem Readded.lookup_eq {registry readded : Registry} (inside : Readded registry readded)
    {clock : Clock} {name : String} (foreign : Generator.builtin? clock name = none) :
    readded.lookup clock name = registry.lookup clock name := by
  -- The induction follows the places where they were put.
  induction inside with
  | same => rfl
  | before _ ih => simp [lookup, foreign, ih]
  | behind _ ih => simp [lookup, foreign, ih]
  | layered _ _ first second => simp only [lookup, first, second]

end Registry

namespace Resolver

variable {clock : Clock} {left right : Registry}

/-- The built-in generators are asked before the fallback. -/
theorem lookup_eq_or (clock : Clock) (fallback : Registry) (opcode : String) :
    (Resolver.mk clock fallback).lookup opcode =
      (Generator.builtin? clock opcode).or (fallback.lookup clock opcode) := by
  simp [lookup, registry, Registry.lookup]

/-- Directives are carried out alike by resolvers that find the same for their opcodes. -/
theorem invoke_congr {first second : Resolver} {directive : Directive}
    (same : first.lookup directive.opcode = second.lookup directive.opcode) :
    first.invoke directive = second.invoke directive := by
  rw [invoke, invoke, same]

/-- Answers are alike when a directive, if there is one, is carried out alike. -/
theorem answer_congr {first second : Resolver} {found : Option Directive}
    (same : ∀ directive, found = some directive →
      first.lookup directive.opcode = second.lookup directive.opcode) (text : String) :
    first.answer text found = second.answer text found := by
  cases found with
  | none => rfl
  | some directive => exact invoke_congr (same directive rfl)

/-- No fallback changes what is found for a built-in opcode. -/
theorem lookup_of_builtin {opcode : String}
    (known : (Generator.builtin? clock opcode).isSome) :
    (Resolver.mk clock left).lookup opcode = (Resolver.mk clock right).lookup opcode := by
  obtain ⟨generator, found⟩ := Option.isSome_iff_exists.mp known
  rw [lookup_eq_or, lookup_eq_or, found, Option.some_or, Option.some_or]

/-- The fallback alone is asked for an opcode that is not built in. -/
theorem lookup_of_foreign {opcode : String} (foreign : Generator.builtin? clock opcode = none) :
    (Resolver.mk clock left).lookup opcode = left.lookup clock opcode := by
  rw [lookup_eq_or, foreign, Option.none_or]

/-- A directive with a foreign opcode is carried out by the generator that the fallback finds. -/
theorem invoke_of_foreign {directive : Directive} {generator : Generator}
    (foreign : Generator.builtin? clock directive.opcode = none)
    (found : left.lookup clock directive.opcode = some generator) :
    (Resolver.mk clock left).invoke directive = some <$> generator ⟨directive.args⟩ := by
  simp only [invoke, lookup_of_foreign foreign, found]

/-- A directive with a foreign opcode has no value when the fallback finds no generator. -/
theorem invoke_of_foreign_absent_iff {directive : Directive}
    (foreign : Generator.builtin? clock directive.opcode = none) (source : Source) :
    (((Resolver.mk clock left).invoke directive).run source).1 = none ↔
      left.lookup clock directive.opcode = none := by
  rw [invoke_absent_iff, Unknown, and_iff_right foreign]

/-- Fallbacks that differ in built-in generators asked once more find the same. -/
theorem lookup_of_readded (inside : left.Readded right) (opcode : String) :
    (Resolver.mk clock left).lookup opcode = (Resolver.mk clock right).lookup opcode := by
  cases known : Generator.builtin? clock opcode with
  | some generator => exact lookup_of_builtin (by simp [known])
  | none => rw [lookup_of_foreign known, lookup_of_foreign known, inside.lookup_eq known]

/-- What a directive is carried out as by a resolver with a given fallback. -/
structure LeftToFallback (clock : Clock) (fallback : Registry) (directive : Directive)
    (source : Source) (outcome : Option Value × Source) : Prop where
  found : ∀ generator, fallback.lookup clock directive.opcode = some generator →
    outcome = (some <$> generator ⟨directive.args⟩ : Draw (Option Value)).run source
  absent : outcome.1 = none ↔ fallback.lookup clock directive.opcode = none

/-- The fallback decides about a directive with a foreign opcode. -/
theorem leftToFallback_of_foreign {directive : Directive}
    (foreign : Generator.builtin? clock directive.opcode = none) (source : Source) :
    LeftToFallback clock left directive source
      (((Resolver.mk clock left).invoke directive).run source) :=
  ⟨fun _ found => by rw [invoke_of_foreign foreign found],
    invoke_of_foreign_absent_iff foreign source⟩

/-- An answer is the same whatever the fallback, unless a foreign opcode is asked for. -/
theorem answer_eq_of_builtin {found : Option Directive}
    (builtin : ∀ directive, found = some directive →
      (Generator.builtin? clock directive.opcode).isSome) (text : String) :
    (Resolver.mk clock left).answer text found = (Resolver.mk clock right).answer text found :=
  answer_congr (fun directive asked => lookup_of_builtin (builtin directive asked)) text

/--
A fallback has no influence on built-in opcodes and on texts without a directive.

It alone decides about every other opcode. How its layers are put together and where the built-in
generators are asked once more makes no difference.
-/
theorem fallback_decides_foreign_opcodes_only (clock : Clock) (left right : Registry)
    (text : String) (source : Source) :
    ((∀ directive, FirstCall text.toList directive →
        (Generator.builtin? clock directive.opcode).isSome) →
      ((Resolver.mk clock left).resolve text).run source =
        ((Resolver.mk clock right).resolve text).run source) ∧
    ((∀ directive, Asks text.toList directive →
        (Generator.builtin? clock directive.opcode).isSome) →
      ((Resolver.mk clock left).mock text).run source =
        ((Resolver.mk clock right).mock text).run source) ∧
    (∀ directive, Generator.builtin? clock directive.opcode = none →
      (FirstCall text.toList directive → LeftToFallback clock left directive source
        (((Resolver.mk clock left).resolve text).run source)) ∧
      (Asks text.toList directive → LeftToFallback clock left directive source
        (((Resolver.mk clock left).mock text).run source))) ∧
    (∀ first second third name,
      (Registry.layered (.layered first second) third).lookup clock name =
        (Registry.layered first (.layered second third)).lookup clock name) ∧
    (left.Readded right →
      (∀ opcode, (Resolver.mk clock left).lookup opcode =
        (Resolver.mk clock right).lookup opcode) ∧
      (∀ directive, ((Resolver.mk clock left).invoke directive).run source =
        ((Resolver.mk clock right).invoke directive).run source) ∧
      ((Resolver.mk clock left).resolve text).run source =
        ((Resolver.mk clock right).resolve text).run source ∧
      ((Resolver.mk clock left).mock text).run source =
        ((Resolver.mk clock right).mock text).run source) := by
  refine ⟨?_, ?_, ?_, fun first second third name =>
    Registry.lookup_layered_assoc first second third clock name, ?_⟩
  · intro builtin
    rw [resolve, answer_eq_of_builtin, resolve]
    intro directive called
    exact builtin directive (Directive.ofCall?_eq_some_iff.mp called)
  · intro builtin
    rw [mock, answer_eq_of_builtin, mock]
    intro directive asked
    exact builtin directive (asks_iff.mp asked)
  · intro directive foreign
    constructor
    · intro first
      rw [resolve_of_firstCall _ first]
      exact leftToFallback_of_foreign foreign source
    · intro asks
      rw [mock_of_asks _ asks]
      exact leftToFallback_of_foreign foreign source
  · intro inside
    -- Both resolvers find the same for every opcode, the asked one among them.
    have same : ∀ opcode, (Resolver.mk clock left).lookup opcode =
        (Resolver.mk clock right).lookup opcode := lookup_of_readded inside
    have answers : ∀ found, (Resolver.mk clock left).answer text found =
        (Resolver.mk clock right).answer text found :=
      fun _ => answer_congr (fun directive _ => same directive.opcode) text
    exact ⟨same, fun _ => by rw [invoke_congr (same _)],
      by rw [resolve, answers, resolve], by rw [mock, answers, mock]⟩

/-- A table that registers a built-in name changes no answer to it, and answers for its own name. -/
theorem shadowed_builtin_keeps_its_answer :
    let own : Registry := .layered (.table ⟨[("string", Generator.generateBoolean),
      ("coin", Generator.generateBoolean)]⟩) (.table {})
    let source := Source.ofTape #[] 0
    ((Resolver.mk ⟨0, 0⟩ own).resolve "@string(3)").run source =
        ((Resolver.mk ⟨0, 0⟩ (.table {})).resolve "@string(3)").run source ∧
      ((Resolver.mk ⟨0, 0⟩ own).mock "@string|len=3").run source =
        ((Resolver.mk ⟨0, 0⟩ (.table {})).mock "@string|len=3").run source ∧
      ((Resolver.mk ⟨0, 0⟩ own).resolve "x @coin(7)").run source =
        (some <$> Generator.generateBoolean ⟨[.number 7]⟩ : Draw (Option Value)).run source ∧
      ((Resolver.mk ⟨0, 0⟩ own).mock "@coin|a=b").run source =
        (some <$> Generator.generateBoolean ⟨[.text "a=b"]⟩ : Draw (Option Value)).run source ∧
      ((Resolver.mk ⟨0, 0⟩ own).mock "@coin").run source =
        ((Resolver.mk ⟨0, 0⟩ (.layered .builtins own)).mock "@coin").run source := by
  intro own source
  have decides := fun right text => fallback_decides_foreign_opcodes_only ⟨0, 0⟩ own right text
    source
  refine ⟨(decides _ _).1 ?_, (decides _ _).2.1 ?_, ?_, ?_, ?_⟩
  · intro directive first
    have read : Directive.ofCall? "@string(3)" = some ⟨"string", [.number 3]⟩ := by decide
    cases read.symm.trans (Directive.ofCall?_eq_some_iff.mpr first)
    rfl
  · intro directive asks
    have read : (Directive.ofCall? "@string|len=3" <|> Directive.ofOptions? "@string|len=3") =
      some ⟨"string", [.text "len=3"]⟩ := by decide
    cases read.symm.trans (asks_iff.mpr asks)
    rfl
  · have first : FirstCall "x @coin(7)".toList ⟨"coin", [.number 7]⟩ :=
      Directive.ofCall?_eq_some_iff.mp (by decide)
    exact (((decides (.table {}) _).2.2.1 _ rfl).1 first).found _ rfl
  · have asks : Asks "@coin|a=b".toList ⟨"coin", [.text "a=b"]⟩ := asks_iff.mp (by decide)
    exact (((decides (.table {}) _).2.2.1 _ rfl).2 asks).found _ rfl
  · exact ((decides _ _).2.2.2.2 (.before (.same own))).2.2.2

end Resolver

end Placeholder

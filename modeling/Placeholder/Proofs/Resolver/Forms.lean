import Placeholder.Proofs.Generator.Options
import Placeholder.Proofs.Resolver.Outcome

/-! A directive has one answer, however its options are written. -/

namespace Placeholder.Resolver

open Directive (callText optionText pairText PlainPair)

/-- A call is answered by carrying out the directive it is read as. -/
theorem answers_of_ofCall? (resolver : Resolver) {text : String} {directive : Directive}
    (called : Directive.ofCall? text = some directive) :
    resolver.resolve text = resolver.invoke directive ∧
      resolver.mock text = resolver.invoke directive := by
  have first := Directive.ofCall?_eq_some_iff.mp called
  exact ⟨resolve_of_firstCall resolver first, mock_of_asks resolver (Or.inl first)⟩

/--
Pairs in a call and the same pairs in an option form are one directive.

They are mocked alike unless a value of the option form brings a call of its own.
-/
theorem call_and_option_form_agree {opcode : String} {pairs : List (String × String)}
    (word : Text.isWord opcode.toList = true) (plain : ∀ pair ∈ pairs, PlainPair pair)
    (separate : ∀ pair ∈ pairs, '&' ∉ pair.2.toList) :
    (∃ directive, Directive.ofCall? (callText opcode (pairs.map pairText)) = some directive ∧
      Directive.ofOptions? (optionText opcode (pairs.map pairText)) = some directive) ∧
    (¬ HoldsCall (optionText opcode (pairs.map pairText)).toList →
      ∀ (resolver : Resolver) (source : Source),
        (resolver.mock (callText opcode (pairs.map pairText))).run source =
          (resolver.mock (optionText opcode (pairs.map pairText))).run source) := by
  -- Both readings give the opcode with the pairs as texts.
  have called := Directive.ofCall?_pairs word plain
  have read := Directive.ofOptions?_pairs word plain separate
  refine ⟨⟨_, called, read⟩, ?_⟩
  intro absent resolver source
  -- Without a call in it, the text asks for the directive of its option form.
  have form := Directive.ofOptions?_eq_some_iff.mp read
  rw [(answers_of_ofCall? resolver called).2, mock_of_asks resolver (Or.inr ⟨absent, form⟩)]

/-- A value may open a call, hold further equals signs or be empty. -/
theorem unclosed_call_in_value_agrees :
    (∃ directive, Directive.ofCall? "@pick(a==@g(,b=007,c=)" = some directive ∧
      Directive.ofOptions? "@pick|a==@g(&b=007&c=" = some directive) ∧
    ((Resolver.mk ⟨0, 0⟩ .builtins).mock "@pick(a==@g(,b=007,c=)").run (Source.ofTape #[] 0) =
      ((Resolver.mk ⟨0, 0⟩ .builtins).mock "@pick|a==@g(&b=007&c=").run (Source.ofTape #[] 0) := by
  have agree := @call_and_option_form_agree "pick" [("a", "=@g("), ("b", "007"), ("c", "")]
    (by decide) (by decide) (by decide)
  have absent : ¬ HoldsCall "@pick|a==@g(&b=007&c=".toList := by
    rw [← Directive.ofCall?_isSome_iff]
    decide
  exact ⟨agree.1, agree.2 absent _ _⟩

/-- A call of a generator with options draws a value from the options it reads. -/
theorem invoke_builtin (resolver : Resolver) {opcode : String} {generator : Generator}
    (known : Generator.builtin? resolver.clock opcode = some generator) (args : List Arg) :
    resolver.invoke ⟨opcode, args⟩ = some <$> generator ⟨args⟩ := by
  -- The built-in generators are asked first.
  have found : resolver.lookup opcode = some generator := by
    simp [lookup, registry, Registry.lookup, known]
  simp only [invoke, found]

/--
Options by position and the same options by name give the same value with the same words.

The pairs may come in any order, with pairs that are overridden or unrelated among them.
-/
theorem named_options_answer_as_positional {opcode : String} {names tokens : List String}
    {pairs : List (String × String)} (listed : (opcode, names) ∈ Generator.optionNames)
    (plainTokens : ∀ token ∈ tokens, Options.PlainToken token)
    (plainPairs : ∀ pair ∈ pairs, PlainPair pair) (naming : Options.Naming names tokens pairs)
    (resolver : Resolver) (source : Source) :
    ∃ value later,
      (resolver.resolve (callText opcode tokens)).run source = (some value, later) ∧
      (resolver.resolve (callText opcode (pairs.map pairText))).run source = (some value, later) ∧
      (resolver.mock (callText opcode tokens)).run source = (some value, later) ∧
      (resolver.mock (callText opcode (pairs.map pairText))).run source = (some value, later) := by
  -- Both texts are calls of the same generator, with classified tokens and with pairs.
  obtain ⟨word, distinct, generator, known, reads⟩ :=
    Generator.builtin?_reads resolver.clock listed
  have positional := answers_of_ofCall? resolver
    (Directive.ofCall?_callText word fun token member =>
      let plain := plainTokens token member
      ⟨plain.nonempty, plain.comma, plain.line⟩)
  have named := answers_of_ofCall? resolver (Directive.ofCall?_pairs word plainPairs)
  -- The generator looks at nothing in which the two lists of arguments differ.
  have same := reads _ _ (Options.agreeOn_of_naming distinct plainTokens plainPairs naming)
  rw [positional.1, positional.2, named.1, named.2, invoke_builtin resolver known,
    invoke_builtin resolver known, same]
  exact ⟨_, _, rfl, rfl, rfl, rfl⟩

/-- The pairs are turned around, one of them after an overridden value and a foreign pair. -/
theorem string_bounds_answer_by_name :
    ∃ value later,
      ((Resolver.mk ⟨0, 0⟩ .builtins).resolve "@string(007,a-b=9)").run (Source.ofTape #[] 0) =
        (some value, later) ∧
      ((Resolver.mk ⟨0, 0⟩ .builtins).resolve "@string(max=3,x=1,max=a-b=9,min=007)").run
        (Source.ofTape #[] 0) = (some value, later) := by
  have ordered : Options.Naming ["min", "max", "len"] ["007", "a-b=9"]
      [("max", "a-b=9"), ("min", "007")] := .ordered (.swap _ _ _)
  have unrelated := @Options.Naming.unrelated _ _ [] _ "x" "1" ordered (by decide)
  have naming := @Options.Naming.overridden _ _ [] _ "max" "3" unrelated (by decide)
  obtain ⟨value, later, positional, named, -, -⟩ :=
    @named_options_answer_as_positional "string" _ _ _ (by decide) (by decide) (by decide) naming
      ⟨⟨0, 0⟩, .builtins⟩ (Source.ofTape #[] 0)
  exact ⟨value, later, positional, named⟩

end Placeholder.Resolver

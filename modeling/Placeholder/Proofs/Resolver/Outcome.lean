import Placeholder.Proofs.Directive.Call
import Placeholder.Proofs.Directive.OptionForm
import Placeholder.Resolver

/-! A text is answered by its first call, else by its option form, and else by itself. -/

namespace Placeholder

/-- A text asks for the directive of its first call, or without one for that of its option form. -/
def Asks (text : List Char) (directive : Directive) : Prop :=
  FirstCall text directive ∨ ¬ HoldsCall text ∧ OptionForm text directive

/-- The directive that a text asks for is what its two readings give, the call before the form. -/
theorem asks_iff {text : String} {directive : Directive} :
    (Directive.ofCall? text <|> Directive.ofOptions? text) = some directive ↔
      Asks text.toList directive := by
  have call := @Directive.ofCall?_isSome_iff text
  rw [Asks, ← Directive.ofCall?_eq_some_iff, ← Directive.ofOptions?_eq_some_iff]
  cases called : Directive.ofCall? text with
  | none =>
    -- Without a call the option form alone decides.
    rw [called] at call
    have absent : ¬ HoldsCall text.toList := by simpa using call
    simp [absent]
  | some first =>
    -- The option form is not looked at when there is a call.
    rw [called] at call
    have holds : HoldsCall text.toList := by simpa using call
    simp [holds]

namespace Resolver

/-- No generator is known by an opcode, neither among the built-in ones nor to the fallback. -/
def Unknown (resolver : Resolver) (opcode : String) : Prop :=
  Generator.builtin? resolver.clock opcode = none ∧
    resolver.fallback.lookup resolver.clock opcode = none

/-- The lookup fails for the unknown opcodes and for no others. -/
theorem lookup_eq_none_iff {resolver : Resolver} {opcode : String} :
    resolver.lookup opcode = none ↔ resolver.Unknown opcode := by
  -- The fallback is asked when the built-in generators have no answer.
  simp [lookup, registry, Registry.lookup, Unknown]

/-- A directive has no value when its opcode is unknown. -/
theorem invoke_absent_iff {resolver : Resolver} {directive : Directive} {source : Source} :
    ((resolver.invoke directive).run source).1 = none ↔ resolver.Unknown directive.opcode := by
  rw [invoke, ← lookup_eq_none_iff]
  cases resolver.lookup directive.opcode with
  | none => exact iff_of_true rfl rfl
  | some generator => simp

/-- An answer is absent when a directive with an unknown opcode was found. -/
theorem answer_absent_iff {resolver : Resolver} {text : String} {found : Option Directive}
    {source : Source} :
    ((resolver.answer text found).run source).1 = none ↔
      ∃ directive, found = some directive ∧ resolver.Unknown directive.opcode := by
  cases found with
  | none =>
    -- The text itself is a value.
    have present : ((resolver.answer text none).run source).1 = some (.string text) := rfl
    simp [present]
  | some directive => simp [answer, invoke_absent_iff]

/-- A text is resolved by carrying out its first call. -/
theorem resolve_of_firstCall (resolver : Resolver) {text : String} {directive : Directive}
    (first : FirstCall text.toList directive) :
    resolver.resolve text = resolver.invoke directive := by
  rw [resolve, Directive.ofCall?_eq_some_iff.mpr first]
  rfl

/-- A text is mocked by carrying out the directive it asks for. -/
theorem mock_of_asks (resolver : Resolver) {text : String} {directive : Directive}
    (asks : Asks text.toList directive) : resolver.mock text = resolver.invoke directive := by
  rw [mock, asks_iff.mpr asks]
  rfl

/-- Mocking has no value exactly when an unknown opcode is asked for. -/
theorem mock_absent_iff {resolver : Resolver} {text : String} {source : Source} :
    ((resolver.mock text).run source).1 = none ↔
      ∃ directive, Asks text.toList directive ∧ resolver.Unknown directive.opcode := by
  simp only [mock, answer_absent_iff, asks_iff]

end Resolver

end Placeholder

import Placeholder.Directive
import Placeholder.Registry

/-! A text with a directive resolves to what its generator produces, and any other to itself. -/

namespace Placeholder

/-- Directives are carried out by the built-in generators first and by a fallback second. -/
structure Resolver where
  clock : Clock
  fallback : Registry := .table {}

namespace Resolver

/-- All the generators of a resolver. -/
def registry (resolver : Resolver) : Registry :=
  .layered .builtins resolver.fallback

/-- The generator of an opcode. -/
def lookup (resolver : Resolver) (opcode : String) : Option Generator :=
  resolver.registry.lookup resolver.clock opcode

/-- A directive is carried out, unless nothing is known by its name. -/
def invoke (resolver : Resolver) (directive : Directive) : Draw (Option Value) :=
  match resolver.lookup directive.opcode with
  | some generator => some <$> generator ⟨directive.args⟩
  | none => return none

/-- A directive is carried out, and without one the text stays itself. -/
def answer (resolver : Resolver) (text : String) (directive : Option Directive) :
    Draw (Option Value) :=
  match directive with
  | some directive => resolver.invoke directive
  | none => return some (.string text)

/-- The answer to the first call form inside a text. -/
def resolve (resolver : Resolver) (text : String) : Draw (Option Value) :=
  resolver.answer text (Directive.ofCall? text)

/-- The answer to a text that may also be an option form as a whole. -/
def mock (resolver : Resolver) (text : String) : Draw (Option Value) :=
  resolver.answer text (Directive.ofCall? text <|> Directive.ofOptions? text)

end Resolver

end Placeholder

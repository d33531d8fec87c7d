import Placeholder.Proofs.Checked.Builtin
import Placeholder.Proofs.Checked.Directive
import Placeholder.Proofs.Registry.Schema
import Placeholder.Proofs.Resolver.Fallback

/-! Every text is answered without a fault, whatever generators a schema declares. -/

namespace Placeholder

namespace Checked

/-- The generators that a schema declares, under their names. -/
def declared (schema : Schema) : List (String × CheckedGenerator) :=
  schema.declarations.map fun declaration =>
    (declaration.name, fun _ => generate declaration.recipe)

/-- The generator of an opcode, where the built-in ones go before the declared ones. -/
def lookup (clock : Clock) (schema : Schema) (opcode : String) : Option CheckedGenerator :=
  (builtins clock).lookup opcode <|> (declared schema).lookup opcode

/-- A directive is carried out, and without one the text stays itself. -/
def answer (clock : Clock) (schema : Schema) (text : String) (directive : Option Directive) :
    CheckedDraw (Option Value) :=
  match directive with
  | some directive =>
    match lookup clock schema directive.opcode with
    | some generator => some <$> generator ⟨directive.args⟩
    | none => return none
  | none => return some (.string text)

/-- The answer to the first call form inside a text. -/
def resolve (clock : Clock) (schema : Schema) (text : String) : CheckedDraw (Option Value) := do
  answer clock schema text (← ofCall? text)

/-- The answer to a text that may also be an option form as a whole. -/
def mock (clock : Clock) (schema : Schema) (text : String) : CheckedDraw (Option Value) := do
  match ← ofCall? text with
  | some directive => answer clock schema text (some directive)
  | none => answer clock schema text (← ofOptions? text)

/-- The declared generators are those that the declarations are registered with. -/
theorem declared_eq (schema : Schema) :
    declared schema = (schema.declarations.map Table.callOf).map fun entry =>
      (entry.1, unfailing entry.2) := by
  rw [declared, List.map_map]
  refine List.map_congr_left fun declaration _ => ?_
  rw [generate_eq]
  rfl

variable {clock : Clock} {schema : Schema} {table : Table}

/-- A table finds what its declarations were registered with. -/
theorem lookup_callOf (registered : Table.ofSchema schema = .ok table) (name : String) :
    (schema.declarations.map Table.callOf).lookup name = table.lookup name := by
  -- No name is declared twice, so the first declaration of a name is the only one.
  have once : ((schema.declarations.map Table.callOf).map Prod.fst).Nodup := by
    rw [Table.map_fst_callOf]
    exact (Table.records_of_ofDeclarations registered).1.distinct
  refine Option.ext fun generator => ?_
  rw [Association.lookup_eq_some_iff_mem once, Table.lookup_ofDeclarations registered]

/-- The generators that are found are those of the resolver, and they do not fail. -/
theorem lookup_eq (registered : Table.ofSchema schema = .ok table) (opcode : String) :
    lookup clock schema opcode =
      ((Resolver.mk clock (.table table)).lookup opcode).map unfailing := by
  unfold lookup
  rw [builtins_eq, declared_eq, Association.lookup_map_snd, Association.lookup_map_snd,
    lookup_callOf registered, Resolver.lookup_eq_or, Option.map_or]
  exact Option.orElse_eq_or

/-- Directives are carried out and texts stay themselves without a fault. -/
theorem answer_eq (registered : Table.ofSchema schema = .ok table) (text : String)
    (directive : Option Directive) :
    answer clock schema text directive =
      ((Resolver.mk clock (.table table)).answer text directive).checked := by
  cases directive with
  | none => rfl
  | some directive =>
    dsimp only [answer, Resolver.answer, Resolver.invoke]
    rw [lookup_eq registered]
    cases (Resolver.mk clock (.table table)).lookup directive.opcode with
    | none => rfl
    | some generator => rfl

end Checked

namespace Resolver

/--
Every operation has a result while a text is answered, whatever a schema declares.

The answer with checked operations is the answer itself and leaves the source in the same place.
-/
theorem answers_without_fault (clock : Clock) {schema : Schema} {table : Table}
    (registered : Table.ofSchema schema = .ok table) (text : String) (source : Source) :
    (Checked.resolve clock schema text).run source =
        .ok (((Resolver.mk clock (.table table)).resolve text).run source) ∧
      (Checked.mock clock schema text).run source =
        .ok (((Resolver.mk clock (.table table)).mock text).run source) := by
  constructor
  · rw [Checked.resolve, Checked.ofCall?_eq, Draw.liftM_ok, pure_bind,
      Checked.answer_eq registered]
    rfl
  · rw [Checked.mock, Checked.ofCall?_eq, Draw.liftM_ok, pure_bind, Resolver.mock]
    cases Directive.ofCall? text with
    | some directive =>
      dsimp only
      rw [Checked.answer_eq registered]
      rfl
    | none =>
      dsimp only
      rw [Checked.ofOptions?_eq, Draw.liftM_ok, pure_bind, Checked.answer_eq registered]
      rfl

/-- Bounds the wrong way round or out of every order meet no fault, and neither do empty choices. -/
theorem unruly_bounds_meet_no_fault :
    let schema : Schema := ⟨1, [⟨"span", .intRange Int64.maxValue Int64.minValue⟩,
      ⟨"ratio", .floatRange .nan (.infinity true)⟩, ⟨"odds", .weightedBool .nan⟩,
      ⟨"nothing", .oneOf []⟩]⟩
    let source := Source.ofTape #[] 0
    ∃ table, Table.ofSchema schema = .ok table ∧
      (Checked.resolve ⟨0, 0⟩ schema "a @span()").run source =
        .ok (((Resolver.mk ⟨0, 0⟩ (.table table)).resolve "a @span()").run source) ∧
      (Checked.mock ⟨0, 0⟩ schema "@ratio").run source =
        .ok (((Resolver.mk ⟨0, 0⟩ (.table table)).mock "@ratio").run source) := by
  intro schema source
  obtain ⟨table, registered⟩ := Table.ofDeclarations_ok_iff.mpr
    (show Table.Registrable schema.declarations from ⟨by decide, by decide⟩)
  exact ⟨table, registered,
    (answers_without_fault ⟨0, 0⟩ registered "a @span()" source).1,
    (answers_without_fault ⟨0, 0⟩ registered "@ratio" source).2⟩

end Resolver

end Placeholder

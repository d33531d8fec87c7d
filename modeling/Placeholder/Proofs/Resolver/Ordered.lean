import Placeholder.Proofs.Generator.Spending
import Placeholder.Proofs.Random.Results
import Placeholder.Proofs.Value.Ordered

/-! Whatever is produced as a value has the fields of its objects in order. -/

namespace Placeholder

open Draw Value

namespace Generator

/-- A scalar that is made of the result of a draw is ordered. -/
theorem ordered_scalar {α : Type} {draw : Draw α} {make : α → Value}
    (alone : ∀ result, (make result).parts = [make result])
    (plain : ∀ result, (make result).object? = none) :
    (draw >>= fun result => pure (make result)).Always Ordered :=
  always_bind (always_true draw) fun result _ =>
    always_pure (ordered_of_parts (alone result) (plain result))

/-- One of several ordered values is ordered. -/
theorem ordered_oneOf {values : List Value} (each : ∀ value ∈ values, value.Ordered) :
    (oneOf values).Always Ordered := by
  cases values with
  | nil => exact always_pure (ordered_of_parts rfl rfl)
  | cons first others =>
    refine always_bind (index_lt (Nat.zero_lt_succ _)) fun position within => always_pure ?_
    rw [List.getD_eq_getElem?_getD, List.getElem?_eq_getElem within]
    exact each _ (List.getElem_mem within)

/-- An argument stands for an ordered value. -/
theorem ordered_ofArg (arg : Arg) : (ofArg arg).Ordered := by
  cases arg with
  | number => exact ordered_of_parts rfl rfl
  | text => exact ordered_of_parts rfl rfl

/-- Built-in generators produce ordered values. -/
theorem ordered_builtin {clock : Clock} {opcode : String} {generator : Generator}
    (found : builtin? clock opcode = some generator) (options : Options) :
    (generator options).Always Ordered := by
  have entry := (Association.lookup_eq_some_iff_mem (builtins_distinct clock)).mp found
  simp only [builtins, List.mem_cons, List.not_mem_nil, or_false, Prod.mk.injEq] at entry
  rcases entry with ⟨-, rfl⟩ | ⟨-, rfl⟩ | ⟨-, rfl⟩ | ⟨-, rfl⟩ | ⟨-, rfl⟩ | ⟨-, rfl⟩ |
    ⟨-, rfl⟩ | ⟨-, rfl⟩ | ⟨-, rfl⟩ | ⟨-, rfl⟩
  -- The last generator picks an argument, and the fourth draws the length of its string first; the
  -- others make a scalar of one draw.
  on_goal 10 =>
    refine ordered_oneOf fun value member => ?_
    obtain ⟨arg, -, rfl⟩ := List.mem_map.mp member
    exact ordered_ofArg arg
  on_goal 4 =>
    exact always_bind (always_true _) fun _ _ => ordered_scalar (fun _ => rfl) fun _ => rfl
  all_goals exact ordered_scalar (fun _ => rfl) fun _ => rfl

end Generator

/-- Recipes produce ordered values. -/
theorem Recipe.ordered_generate (recipe : Recipe) : recipe.generate.Always Ordered := by
  cases recipe with
  | uuid => exact Generator.ordered_scalar (fun _ => rfl) fun _ => rfl
  | intRange => exact Generator.ordered_scalar (fun _ => rfl) fun _ => rfl
  | floatRange => exact Generator.ordered_scalar (fun _ => rfl) fun _ => rfl
  | weightedBool => exact Generator.ordered_scalar (fun _ => rfl) fun _ => rfl
  | oneOf choices =>
    refine Generator.ordered_oneOf fun value member => ?_
    obtain ⟨datum, -, rfl⟩ := List.mem_map.mp member
    exact ordered_ofYaml datum
  | static datum => exact always_pure (ordered_ofYaml datum)
  | null => exact always_pure (ordered_of_parts rfl rfl)

/-- Generators of declared registries produce ordered values. -/
theorem Registry.Declared.ordered {registry : Registry} (declared : registry.Declared)
    {clock : Clock} {name : String} {generator : Generator}
    (found : registry.lookup clock name = some generator) (options : Options) :
    (generator options).Always Ordered := by
  induction declared with
  | builtins => exact Generator.ordered_builtin found options
  | table built =>
    obtain ⟨declaration, -, called⟩ :=
      List.mem_map.mp ((Table.lookup_ofDeclarations built).mp found)
    cases called
    exact declaration.recipe.ordered_generate
  | layered first second firstOrdered secondOrdered =>
    rw [lookup, Option.orElse_eq_orElse, Option.orElse_eq_or, Option.or_eq_some_iff] at found
    obtain inFirst | ⟨-, inSecond⟩ := found
    · exact firstOrdered inFirst
    · exact secondOrdered inSecond

/-- Whatever a text is answered with is ordered. -/
theorem Resolver.ordered_answer {resolver : Resolver} (declared : resolver.fallback.Declared)
    (text : String) (directive : Option Directive) :
    (resolver.answer text directive).Always fun answer => ∀ value ∈ answer, value.Ordered := by
  cases directive with
  | none =>
    refine always_pure ?_
    rintro value ⟨⟩
    exact ordered_of_parts rfl rfl
  | some directive =>
    show (resolver.invoke directive).Always _
    unfold invoke
    cases found : resolver.lookup directive.opcode with
    | none => exact always_pure (by rintro value ⟨⟩)
    | some generator =>
      intro source
      rw [run_map]
      rintro value ⟨rfl⟩
      exact (Registry.Declared.layered .builtins declared).ordered found _ source

end Placeholder

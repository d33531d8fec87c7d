import Placeholder.Proofs.Association
import Placeholder.Proofs.Random.Taking
import Placeholder.Proofs.Registry.Schema
import Placeholder.Resolver

/-! Generators, recipes and resolvers take a known number of words for what they produce. -/

namespace Placeholder

namespace Generator

open Draw

/-- The built-in generators that take a single word, whatever their options. -/
def singleWordNames : List String :=
  ["integer", "float", "char", "boolean", "date", "time", "datetime"]

/-- The number of words that a built-in generator takes from options for a value. -/
inductive Cost (options : Options) : String → Value → Nat → Prop where
  | single {opcode : String} (listed : opcode ∈ singleWordNames) (value : Value) :
    Cost options opcode value 1
  | identifier (value : Value) : Cost options "uuid" value 2
  /-- A string of a length that is given takes a word for each character. -/
  | givenLength {length : Int64} (given : options.integer? "len" 2 = some length)
    (least : 1 ≤ length) (greatest : length ≤ 100) {text : String}
    (exact : text.length = length.toNatClampNeg) :
    Cost options "string" (.string text) text.length
  /-- A string of a length that is drawn takes one word more. -/
  | drawnLength
    (free : ∀ length, options.integer? "len" 2 = some length → ¬(1 ≤ length ∧ length ≤ 100))
    (text : String) : Cost options "string" (.string text) (text.length + 1)
  | pickNone (none : options.args = []) (value : Value) : Cost options "pick" value 0
  | pick (some : options.args ≠ []) (value : Value) {count : Nat} (few : count = 1 ∨ count = 2) :
    Cost options "pick" value count

/-- An integer takes a word, whatever its bounds. -/
theorem spends_integer (min max : Option Int64) :
    (integer min max).Spends fun _ count => count = 1 :=
  spends_fraction.bind fun _ _ one => spends_pure one

/-- A float takes a word, whatever its bounds and decimal places. -/
theorem spends_float (min max : Binary64) (places : Option UInt32) :
    (float min max places).Spends fun _ count => count = 1 :=
  spends_fraction.bind fun _ _ one => spends_pure one

/-- A truth value takes a word. -/
theorem spends_boolean : boolean.Spends fun _ count => count = 1 :=
  spends_fraction.bind fun _ _ one => spends_pure one

/-- A character takes a word. -/
theorem spends_character : character.Spends fun _ count => count = 1 :=
  (spends_integer _ _).bind fun _ _ one => spends_pure one

/-- An instant takes a word, whatever the time. -/
theorem spends_instantBefore (now : Int) :
    (instantBefore now).Spends fun _ count => count = 1 :=
  spends_fraction.bind fun _ _ one => spends_pure one

/-- An identifier takes two words. -/
theorem spends_identifier : identifier.Spends fun _ count => count = 2 :=
  spends_sixteenBytes.bind fun _ _ two => spends_pure two

/-- A choice takes no word when there is nothing to choose from, and one or two otherwise. -/
theorem spends_oneOf (values : List Value) :
    (oneOf values).Spends fun _ count =>
      if values = [] then count = 0 else count = 1 ∨ count = 2 := by
  cases values with
  | nil => exact spends_pure (by rw [if_pos rfl])
  | cons value values =>
    refine (spends_index _).bind fun position count few => spends_pure ?_
    rw [if_neg (List.cons_ne_nil value values)]
    exact few

/-- A length that is given within the limits takes no word, and any other is drawn with one. -/
theorem spends_stringLength (min max length : Option Int64) :
    (stringLength min max length).Spends fun drawn count =>
      (∃ given, length = some given ∧ (1 ≤ given ∧ given ≤ 100) ∧
        drawn = given.toNatClampNeg ∧ count = 0) ∨
      ((∀ given, length = some given → ¬(1 ≤ given ∧ given ≤ 100)) ∧ count = 1) := by
  unfold stringLength
  cases kept : length.filter fun given => leastLength ≤ given && given ≤ greatestLength with
  | some given =>
    obtain ⟨found, within⟩ := Option.filter_eq_some_iff.mp kept
    rw [Bool.and_eq_true, decide_eq_true_eq, decide_eq_true_eq] at within
    exact spends_pure (Or.inl ⟨given, found, within, rfl, rfl⟩)
  | none =>
    refine (spends_integer _ _).bind fun drawn count one => spends_pure (Or.inr ⟨?_, one⟩)
    intro given found within
    rw [Option.filter_eq_none_iff] at kept
    refine kept given found ?_
    rw [Bool.and_eq_true, decide_eq_true_eq, decide_eq_true_eq]
    exact within

/-- A string takes as many words as it has characters. -/
theorem spends_string (length : Nat) :
    (string length).Spends fun text count => text.length = length ∧ count = length := by
  refine (spends_times spends_character length).bind fun characters count both => spends_pure ?_
  rw [String.length_ofList]
  exact both

/-- Strings take a word for each character, and one for a length that is not given. -/
theorem spends_generateString (options : Options) :
    (generateString options).Spends (Cost options "string") := by
  refine (spends_stringLength _ _ _).bind fun length count decided => ?_
  refine (spends_string length).bind fun text further both => spends_pure ?_
  -- The words for the characters come behind the one for the length, if there is one.
  obtain ⟨exact, rfl⟩ := both
  obtain ⟨given, found, ⟨least, greatest⟩, rfl, rfl⟩ | ⟨free, rfl⟩ := decided
  · have cost := Cost.givenLength found least greatest exact
    rw [exact] at cost
    rw [Nat.add_zero, Nat.zero_add]
    exact cost
  · have cost := Cost.drawnLength free text
    rw [exact] at cost
    rw [Nat.add_zero, Nat.add_comm]
    exact cost

/-- Picking takes no word without arguments. -/
theorem spends_generatePick (options : Options) :
    (generatePick options).Spends (Cost options "pick") := by
  refine (spends_oneOf _).weaken fun value count fits => ?_
  split at fits
  · rename_i none
    rw [fits]
    exact .pickNone (List.map_eq_nil_iff.mp none) value
  · rename_i some
    exact .pick (fun none => some (List.map_eq_nil_iff.mpr none)) value fits

/-- A value that is made of a draw of one word is as cheap as the generators of single words. -/
theorem spends_single {α : Type} {draw : Draw α} (single : draw.Spends fun _ count => count = 1)
    (make : α → Value) (options : Options) {opcode : String} (listed : opcode ∈ singleWordNames) :
    (draw >>= fun value => pure (make value)).Spends (Cost options opcode) := by
  refine single.bind fun value count one => spends_pure ?_
  rw [one]
  exact .single listed (make value)

/-- No name is built in twice. -/
theorem builtins_distinct (clock : Clock) : ((builtins clock).map Prod.fst).Nodup := by
  simp [builtins]

/-- Each built-in generator takes as many words as its cost for the value that it produces. -/
theorem spends_builtin {clock : Clock} {opcode : String} {generator : Generator}
    (found : builtin? clock opcode = some generator) (options : Options) :
    (generator options).Spends (Cost options opcode) := by
  have entry := (Association.lookup_eq_some_iff_mem (builtins_distinct clock)).mp found
  simp only [builtins, List.mem_cons, List.not_mem_nil, or_false, Prod.mk.injEq] at entry
  rcases entry with ⟨rfl, rfl⟩ | ⟨rfl, rfl⟩ | ⟨rfl, rfl⟩ | ⟨rfl, rfl⟩ | ⟨rfl, rfl⟩ | ⟨rfl, rfl⟩ |
    ⟨rfl, rfl⟩ | ⟨rfl, rfl⟩ | ⟨rfl, rfl⟩ | ⟨rfl, rfl⟩
  · exact spends_single (spends_integer _ _) _ options (by decide)
  · exact spends_single (spends_float _ _ _) _ options (by decide)
  · exact spends_single spends_character _ options (by decide)
  · exact spends_generateString options
  · exact spends_single spends_boolean _ options (by decide)
  · exact spends_single (spends_instantBefore _) _ options (by decide)
  · exact spends_single (spends_instantBefore _) _ options (by decide)
  · exact spends_single (spends_instantBefore _) _ options (by decide)
  · refine spends_identifier.bind fun text count two => spends_pure ?_
    rw [two]
    exact .identifier _
  · exact spends_generatePick options

end Generator

namespace Recipe

open Draw Generator

/-- The numbers of words that a recipe may take. -/
def costs : Recipe → List Nat
  | .static _ | .null | .oneOf [] => [0]
  | .weightedBool _ => [0, 1]
  | .intRange _ _ | .floatRange _ _ => [1]
  | .oneOf (_ :: _) => [1, 2]
  | .uuid => [2]

/-- A recipe takes one of its numbers of words. -/
theorem spends_generate (recipe : Recipe) :
    recipe.generate.Spends fun _ count => count ∈ recipe.costs := by
  cases recipe with
  | uuid => exact spends_identifier.bind fun _ _ two => spends_pure (by simp [costs, two])
  | intRange min max =>
    exact (spends_integer _ _).bind fun _ _ one => spends_pure (by simp [costs, one])
  | floatRange min max =>
    exact (spends_float _ _ _).bind fun _ _ one => spends_pure (by simp [costs, one])
  | weightedBool weight =>
    exact (spends_chance _).bind fun _ _ few => spends_pure (by simpa [costs] using few)
  | oneOf choices =>
    refine (spends_oneOf _).weaken fun value count fits => ?_
    cases choices with
    | nil => simpa [costs] using fits
    | cons choice choices => simpa [costs] using fits
  | static datum => exact spends_pure (by simp [costs])
  | null => exact spends_pure (by simp [costs])

end Recipe

/-- Registries that consist of built-in generators and of tables of schemas. -/
inductive Registry.Declared : Registry → Prop where
  | builtins : Declared .builtins
  | table {schema : Schema} {own : Table} (built : Table.ofSchema schema = .ok own) :
    Declared (.table own)
  | layered {primary fallback : Registry} (first : Declared primary) (second : Declared fallback) :
    Declared (.layered primary fallback)

/-- A generator that a schema declares, or that is built in, takes some words and no others. -/
theorem Registry.Declared.spends {registry : Registry} (declared : registry.Declared)
    {clock : Clock} {name : String} {generator : Generator}
    (found : registry.lookup clock name = some generator) (options : Options) :
    (generator options).Spends fun _ _ => True := by
  induction declared with
  | builtins => exact (Generator.spends_builtin found options).weaken fun _ _ _ => trivial
  | table built =>
    obtain ⟨declaration, -, called⟩ :=
      List.mem_map.mp ((Table.lookup_ofDeclarations built).mp found)
    cases called
    exact declaration.recipe.spends_generate.weaken fun _ _ _ => trivial
  | layered first second firstSpends secondSpends =>
    rw [lookup, Option.orElse_eq_orElse, Option.orElse_eq_or, Option.or_eq_some_iff] at found
    obtain inFirst | ⟨-, inSecond⟩ := found
    · exact firstSpends inFirst
    · exact secondSpends inSecond

namespace Resolver

open Draw

/-- An answer takes the words of the generator that gives it, and none without one. -/
theorem spends_answer {resolver : Resolver} (declared : resolver.fallback.Declared) (text : String)
    (directive : Option Directive) :
    (resolver.answer text directive).Spends fun _ _ => True := by
  cases directive with
  | none => exact spends_pure trivial
  | some directive =>
    show (resolver.invoke directive).Spends _
    unfold invoke
    cases found : resolver.lookup directive.opcode with
    | none => exact spends_pure trivial
    | some generator =>
      exact ((Registry.Declared.layered .builtins declared).spends found _).map

end Resolver

/--
The number of words that are taken is exact, and no other words count.

A built-in generator takes as many as its cost for the value says, and a recipe one of its
numbers. Texts that are resolved one after another, with generators of schemas as a fallback, each
start at the word behind those of the texts in front of them.
-/
theorem words_taken_are_exact (clock : Clock) :
    (∀ opcode generator, Generator.builtin? clock opcode = some generator → ∀ options : Options,
      (generator options).Spends (Generator.Cost options opcode)) ∧
    (∀ recipe : Recipe, recipe.generate.Spends fun _ count => count ∈ recipe.costs) ∧
    ∀ fallback : Registry, fallback.Declared → ∀ draws : List (Draw (Option Value)),
      (∀ draw ∈ draws, ∃ text, draw = Resolver.mock ⟨clock, fallback⟩ text ∨
        draw = Resolver.resolve ⟨clock, fallback⟩ text) →
      ∀ source, ∃ results, Draw.InTurn draws source results ∧
        (draws.mapM id).run source =
          (results.map (·.1), source.behind (results.map (·.2)).sum) := by
  refine ⟨fun _ _ => Generator.spends_builtin, Recipe.spends_generate, ?_⟩
  intro fallback declared draws resolutions source
  have each : ∀ draw ∈ draws, draw.Spends fun _ _ => True := by
    intro draw member
    obtain ⟨text, rfl | rfl⟩ := resolutions draw member
    · exact Resolver.spends_answer declared text _
    · exact Resolver.spends_answer declared text _
  obtain ⟨results, turns⟩ := Draw.exists_inTurn each source
  exact ⟨results, turns, turns.run⟩

/-- Identifiers take two words each, and a null between them takes none. -/
theorem identifiers_follow_each_other :
    Generator.builtin? ⟨0, 0⟩ "uuid" = some Generator.generateIdentifier ∧
    (Generator.generateIdentifier ⟨[]⟩).Spends (Generator.Cost ⟨[]⟩ "uuid") ∧
    ∃ table, Table.ofSchema ⟨1, [⟨"gap", .null⟩]⟩ = .ok table ∧
      ∃ results, Draw.InTurn
          [Resolver.mock ⟨⟨0, 0⟩, .table table⟩ "@uuid()",
            Resolver.mock ⟨⟨0, 0⟩, .table table⟩ "@gap()",
            Resolver.resolve ⟨⟨0, 0⟩, .table table⟩ "@uuid()"] (.ofTape #[] 0) results ∧
        (results.map (·.2)).sum = 4 := by
  obtain ⟨generators, -, resolutions⟩ := words_taken_are_exact ⟨0, 0⟩
  have built : ∃ table, Table.ofSchema ⟨1, [⟨"gap", .null⟩]⟩ = .ok table := ⟨_, rfl⟩
  obtain ⟨table, built⟩ := built
  refine ⟨rfl, generators "uuid" _ rfl ⟨[]⟩, table, built, ?_⟩
  obtain ⟨results, turns, run⟩ := resolutions (.table table) (.table built)
    [Resolver.mock _ "@uuid()", Resolver.mock _ "@gap()", Resolver.resolve _ "@uuid()"]
    (by
      intro draw member
      simp only [List.mem_cons, List.not_mem_nil, or_false] at member
      rcases member with rfl | rfl | rfl
      · exact ⟨"@uuid()", Or.inl rfl⟩
      · exact ⟨"@gap()", Or.inl rfl⟩
      · exact ⟨"@uuid()", Or.inr rfl⟩)
    (.ofTape #[] 0)
  refine ⟨results, turns, ?_⟩
  have drawn := congrArg (fun outcome => outcome.2.drawn) run
  simp only [Source.behind, Source.ofTape, Nat.zero_add] at drawn
  rw [← drawn]
  cases built
  decide +kernel

end Placeholder

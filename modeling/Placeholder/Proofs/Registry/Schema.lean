import Mathlib.Data.List.Induction
import Placeholder.Proofs.Registry.Table

/-! The table of a schema has a generator for each declaration, unless two names clash. -/

namespace Placeholder.Table

/-- The call that registers a declaration. -/
def callOf (declaration : Declaration) : String × Generator :=
  (declaration.name, fun _ => declaration.recipe.generate)

/-- The names that declarations are registered under are their own. -/
@[simp] theorem map_fst_callOf (declarations : List Declaration) :
    (declarations.map callOf).map Prod.fst = declarations.map (·.name) := by
  simp [callOf]

/-- Declarations can be registered together when their names are words that all differ. -/
structure Registrable (declarations : List Declaration) : Prop where
  words : ∀ declaration ∈ declarations, Text.isWord declaration.name.toList = true
  distinct : (declarations.map (·.name)).Nodup

/-- One more declaration needs a word for its name that no other has. -/
theorem registrable_concat_iff {earlier : List Declaration} {declaration : Declaration} :
    Registrable (earlier ++ [declaration]) ↔
      Registrable earlier ∧ Text.isWord declaration.name.toList = true ∧
        declaration.name ∉ earlier.map (·.name) := by
  constructor
  · intro registrable
    obtain ⟨words, distinct⟩ := registrable
    -- The last name differs from every one before it.
    rw [List.map_append, List.map_singleton, List.nodup_append] at distinct
    refine ⟨⟨fun other member => words other (by simp [member]), distinct.1⟩,
      words declaration (by simp), ?_⟩
    intro seen
    exact distinct.2.2 _ seen _ (by simp) rfl
  · intro registrable
    obtain ⟨⟨words, distinct⟩, word, fresh⟩ := registrable
    constructor
    · intro other member
      rcases List.mem_append.mp member with member | member
      · exact words other member
      · rwa [List.mem_singleton.mp member]
    · rw [List.map_append, List.map_singleton, ← List.concat_eq_append]
      exact distinct.concat fresh

/-- The table of declarations that are registered one after another. -/
def ofDeclarations (declarations : List Declaration) : Except RegistryError Table :=
  declarations.foldlM declare {}

/-- Later declarations are registered in the table of the earlier ones. -/
theorem ofDeclarations_append (earlier later : List Declaration) :
    ofDeclarations (earlier ++ later) =
      (ofDeclarations earlier).bind fun table => later.foldlM declare table := by
  rw [ofDeclarations, List.foldlM_append]
  rfl

/-- The last declaration is registered in the table of those before it. -/
theorem ofDeclarations_concat (earlier : List Declaration) (declaration : Declaration) :
    ofDeclarations (earlier ++ [declaration]) =
      (ofDeclarations earlier).bind fun table => table.declare declaration := by
  simp only [ofDeclarations_append, List.foldlM_cons, List.foldlM_nil, bind_pure]

/-- A table of declarations records their calls, and they were registrable. -/
theorem records_of_ofDeclarations {declarations : List Declaration} {table : Table}
    (built : ofDeclarations declarations = .ok table) :
    Registrable declarations ∧ table.Records (declarations.map callOf) := by
  -- Each declaration was accepted by the table of those before it.
  induction declarations using List.reverseRecOn generalizing table with
  | nil =>
    cases built
    exact ⟨⟨by simp, List.nodup_nil⟩, Records.empty⟩
  | append_singleton earlier declaration ih =>
    rw [ofDeclarations_concat] at built
    cases found : ofDeclarations earlier with
    | error cause =>
      rw [found] at built
      cases built
    | ok before =>
      obtain ⟨registrable, records⟩ := ih found
      rw [found] at built
      have accepted := (records.register_eq_ok_iff.mp built).1
      rw [map_fst_callOf] at accepted
      rw [List.map_append, List.map_singleton]
      exact ⟨registrable_concat_iff.mpr ⟨registrable, accepted⟩, records.accepted built⟩

/-- Registrable declarations have a table. -/
theorem exists_ofDeclarations {declarations : List Declaration}
    (registrable : Registrable declarations) :
    ∃ table, ofDeclarations declarations = .ok table := by
  -- The table of the earlier declarations has no generator under the last name yet.
  induction declarations using List.reverseRecOn with
  | nil => exact ⟨{}, rfl⟩
  | append_singleton earlier declaration ih =>
    obtain ⟨registrable, accepted⟩ := registrable_concat_iff.mp registrable
    obtain ⟨before, built⟩ := ih registrable
    have records := (records_of_ofDeclarations built).2
    rw [← map_fst_callOf] at accepted
    refine ⟨{ entries := callOf declaration :: before.entries }, ?_⟩
    rw [ofDeclarations_concat, built]
    exact records.register_eq_ok_iff.mpr ⟨accepted, rfl⟩

/-- Declarations have a table exactly when they are registrable. -/
theorem ofDeclarations_ok_iff {declarations : List Declaration} :
    (∃ table, ofDeclarations declarations = .ok table) ↔ Registrable declarations :=
  ⟨fun built => built.elim fun _ built => (records_of_ofDeclarations built).1,
    exists_ofDeclarations⟩

/-- The first declaration that is refused after those before it decides the refusal of all. -/
theorem ofDeclarations_error_iff {declarations : List Declaration} {cause : RegistryError} :
    ofDeclarations declarations = .error cause ↔
      ∃ earlier declaration later, declarations = earlier ++ declaration :: later ∧
        Registrable earlier ∧ Refusal (earlier.map (·.name)) declaration.name cause := by
  constructor
  · intro refused
    -- Either the declarations before the last one are refused already, or the last one is.
    induction declarations using List.reverseRecOn with
    | nil => cases refused
    | append_singleton before last ih =>
      rw [ofDeclarations_concat] at refused
      cases found : ofDeclarations before with
      | error other =>
        rw [found] at refused
        cases refused
        obtain ⟨earlier, declaration, later, rfl, first⟩ := ih found
        exact ⟨earlier, declaration, later ++ [last], by simp, first⟩
      | ok table =>
        obtain ⟨registrable, records⟩ := records_of_ofDeclarations found
        rw [found] at refused
        have refusal := records.register_eq_error_iff.mp refused
        rw [map_fst_callOf] at refusal
        exact ⟨before, last, [], rfl, registrable, refusal⟩
  · intro first
    obtain ⟨earlier, declaration, later, rfl, registrable, refusal⟩ := first
    obtain ⟨table, built⟩ := exists_ofDeclarations registrable
    have records := (records_of_ofDeclarations built).2
    rw [← map_fst_callOf] at refusal
    have refused : table.declare declaration = .error cause :=
      records.register_eq_error_iff.mpr refusal
    -- Nothing behind the refused declaration is looked at.
    rw [ofDeclarations_append, built, Except.bind, List.foldlM_cons, refused]
    rfl

/-- A table of declarations finds their own generators under their names, and no others. -/
theorem lookup_ofDeclarations {declarations : List Declaration} {table : Table}
    (built : ofDeclarations declarations = .ok table) {name : String} {generator : Generator} :
    table.lookup name = some generator ↔ (name, generator) ∈ declarations.map callOf := by
  obtain ⟨registrable, records⟩ := records_of_ofDeclarations built
  have once : ((declarations.map callOf).map Prod.fst).Nodup := by
    rw [map_fst_callOf]
    exact registrable.distinct
  -- Each name has one entry in the table and one call among the declarations.
  rw [lookup, Association.lookup_eq_some_iff_mem records.distinct, records.entry,
    Association.lookup_eq_some_iff_mem once]
  constructor
  · exact fun found => found.2
  · intro member
    obtain ⟨declaration, declared, same⟩ := List.mem_map.mp member
    cases same
    exact ⟨registrable.words declaration declared, member⟩

/-- A table of declarations has as many generators as there are declarations. -/
theorem size_ofDeclarations {declarations : List Declaration} {table : Table}
    (built : ofDeclarations declarations = .ok table) : table.size = declarations.length := by
  obtain ⟨registrable, records⟩ := records_of_ofDeclarations built
  -- The names of the table are those of the declarations, in another order.
  have order : table.keys.Perm (declarations.map (·.name)) := by
    rw [List.perm_ext_iff_of_nodup records.distinct registrable.distinct]
    intro name
    rw [records.mem_keys, map_fst_callOf, and_iff_right_iff_imp]
    intro declared
    obtain ⟨declaration, member, rfl⟩ := List.mem_map.mp declared
    exact registrable.words declaration member
  rw [size_eq_length_keys, order.length_eq, List.length_map]

/-- Declarations can be registered in any order or in none. -/
theorem registrable_perm {declarations others : List Declaration}
    (order : others.Perm declarations) : Registrable others ↔ Registrable declarations := by
  have words : (∀ declaration ∈ others, Text.isWord declaration.name.toList = true) ↔
      ∀ declaration ∈ declarations, Text.isWord declaration.name.toList = true := by
    simp only [order.mem_iff]
  have distinct := (order.map (·.name)).nodup_iff
  exact ⟨fun registrable => ⟨words.mp registrable.words, distinct.mp registrable.distinct⟩,
    fun registrable => ⟨words.mpr registrable.words, distinct.mpr registrable.distinct⟩⟩

/-- Declarations in another order have a table that is alike. -/
theorem alike_of_perm {declarations others : List Declaration} {table otherTable : Table}
    (order : others.Perm declarations) (built : ofDeclarations declarations = .ok table)
    (otherBuilt : ofDeclarations others = .ok otherTable) : otherTable.Alike table := by
  -- What a name finds depends on which declarations there are, not on where they stand.
  refine alike_of_lookup (records_of_ofDeclarations otherBuilt).2.distinct
    (records_of_ofDeclarations built).2.distinct fun name => Option.ext fun generator => ?_
  rw [lookup_ofDeclarations otherBuilt, lookup_ofDeclarations built, (order.map callOf).mem_iff]

/--
A schema has a table exactly when the names of its declarations are words that all differ.

Each name then finds its own recipe, whatever the options. Otherwise the first declaration that
the ones before it do not allow is refused. The order of the declarations makes no difference to
a table.
-/
theorem ofSchema_registers_each_declaration (schema : Schema) :
    ((∃ table, ofSchema schema = .ok table) ↔ Registrable schema.declarations) ∧
    (∀ table, ofSchema schema = .ok table →
      table.size = schema.declarations.length ∧
      (∀ declaration ∈ schema.declarations,
        table.lookup declaration.name = some fun _ => declaration.recipe.generate) ∧
      ∀ name, name ∉ schema.declarations.map (·.name) → table.lookup name = none) ∧
    (∀ cause, ofSchema schema = .error cause ↔
      ∃ earlier declaration later, schema.declarations = earlier ++ declaration :: later ∧
        Registrable earlier ∧ Refusal (earlier.map (·.name)) declaration.name cause) ∧
    ∀ other : Schema, other.declarations.Perm schema.declarations →
      ((∃ table, ofSchema other = .ok table) ↔ ∃ table, ofSchema schema = .ok table) ∧
      ∀ table otherTable, ofSchema schema = .ok table → ofSchema other = .ok otherTable →
        otherTable.Alike table := by
  refine ⟨ofDeclarations_ok_iff, ?_, fun cause => ofDeclarations_error_iff, ?_⟩
  · intro table built
    refine ⟨size_ofDeclarations built, ?_, ?_⟩
    · intro declaration member
      exact (lookup_ofDeclarations built).mpr (List.mem_map_of_mem member)
    · intro name undeclared
      rw [Option.eq_none_iff_forall_ne_some]
      intro generator found
      have called := (lookup_ofDeclarations built).mp found
      rw [← map_fst_callOf] at undeclared
      exact undeclared (List.mem_map_of_mem called)
  · intro other order
    refine ⟨?_, fun _ _ => alike_of_perm order⟩
    exact ofDeclarations_ok_iff.trans ((registrable_perm order).trans ofDeclarations_ok_iff.symm)

/-- Two declarations in turned order have tables that are alike, and a third may clash. -/
theorem turned_declarations_alike :
    (∃ table otherTable, ofSchema ⟨1, [⟨"b", .null⟩, ⟨"a", .uuid⟩]⟩ = .ok table ∧
      ofSchema ⟨1, [⟨"a", .uuid⟩, ⟨"b", .null⟩]⟩ = .ok otherTable ∧ table.size = 2 ∧
      table.lookup "b" = some (fun _ => Recipe.null.generate) ∧ otherTable.Alike table) ∧
    ofSchema ⟨1, [⟨"b", .null⟩, ⟨"a", .uuid⟩, ⟨"b", .uuid⟩, ⟨"-", .null⟩]⟩ =
      .error (.alreadyRegistered "b") := by
  have registered := ofSchema_registers_each_declaration ⟨1, [⟨"b", .null⟩, ⟨"a", .uuid⟩]⟩
  have refused := ofSchema_registers_each_declaration
    ⟨1, [⟨"b", .null⟩, ⟨"a", .uuid⟩, ⟨"b", .uuid⟩, ⟨"-", .null⟩]⟩
  have turned := registered.2.2.2 ⟨1, [⟨"a", .uuid⟩, ⟨"b", .null⟩]⟩ (.swap _ _ _)
  obtain ⟨table, built⟩ := registered.1.mpr ⟨by decide, by decide⟩
  obtain ⟨otherTable, otherBuilt⟩ := turned.1.mpr ⟨table, built⟩
  obtain ⟨size, found, -⟩ := registered.2.1 table built
  refine ⟨⟨table, otherTable, built, otherBuilt, size, found ⟨"b", .null⟩ (by simp),
    turned.2 _ _ built otherBuilt⟩, ?_⟩
  exact (refused.2.2.1 _).mpr ⟨[⟨"b", .null⟩, ⟨"a", .uuid⟩], ⟨"b", .uuid⟩, [⟨"-", .null⟩], rfl,
    ⟨by decide, by decide⟩, .repeated (by decide) (by decide)⟩

end Placeholder.Table

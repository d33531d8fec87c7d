import Placeholder.Options
import Placeholder.Proofs.Directive.OptionForm

/-! A pair counts as a named option when a word names it, and else it is left to its position. -/

namespace Placeholder

namespace Arg

/-- A text is a pair of the name before its first equals sign and the value behind that. -/
structure Pair (arg : Arg) (name value : String) : Prop where
  -- Further equals signs belong to the value.
  clean : '=' ∉ name.toList
  written : arg = .text (name ++ "=" ++ value)

/-- The pair of a text is what the cut at its first equals sign gives. -/
theorem pair_text_iff {content name value : String} :
    (Arg.text content).Pair name value ↔
      Text.cutFirst '=' content.toList = some (name.toList, value.toList) := by
  rw [Text.cutFirst_eq_some_iff]
  constructor
  · intro pair
    have written : content = name ++ "=" ++ value := Arg.text.inj pair.written
    exact ⟨by simp [written], pair.clean⟩
  · intro cut
    refine ⟨cut.2, congrArg Arg.text ?_⟩
    rw [← String.toList_inj, cut.1]
    simp

/-- A text is a pair in one way only. -/
theorem Pair.unique {arg : Arg} {name value otherName otherValue : String}
    (pair : arg.Pair name value) (other : arg.Pair otherName otherValue) :
    name = otherName ∧ value = otherValue := by
  obtain rfl := pair.written
  have same := (pair_text_iff.mp pair).symm.trans (pair_text_iff.mp other)
  simpa [String.toList_inj] using same

/-- Texts with an equals sign are pairs. -/
theorem exists_pair_iff {content : String} :
    (∃ name value, (Arg.text content).Pair name value) ↔ '=' ∈ content.toList := by
  rw [← Text.cutFirst_isSome_iff, Option.isSome_iff_exists]
  constructor
  · intro exists_
    obtain ⟨name, value, pair⟩ := exists_
    exact ⟨(name.toList, value.toList), pair_text_iff.mp pair⟩
  · intro exists_
    obtain ⟨⟨name, value⟩, cut⟩ := exists_
    exact ⟨String.ofList name, String.ofList value, pair_text_iff.mpr (by simpa using cut)⟩

/-- An option is a pair whose name is a word, and its value is classified. -/
theorem option?_eq_some_iff {arg value : Arg} {name : String} :
    arg.option? = some (name, value) ↔
      Text.isWord name.toList = true ∧ ∃ content, arg.Pair name content ∧
        value = classify content := by
  cases arg with
  | number number =>
    -- Numbers have no text to cut.
    simp only [option?, content?, Option.bind_eq_bind, Option.bind_none, reduceCtorEq, false_iff]
    intro option
    obtain ⟨-, content, pair, -⟩ := option
    cases pair.written
  | text content =>
    simp only [pair_text_iff]
    constructor
    · intro option
      simp only [option?, content?, Option.bind_eq_bind, Option.bind_some,
        Option.bind_eq_some_iff] at option
      obtain ⟨⟨before, after⟩, cut, tested⟩ := option
      split at tested
      · rename_i word
        simp only [Option.some.injEq, Prod.mk.injEq] at tested
        obtain ⟨rfl, rfl⟩ := tested
        exact ⟨by simpa using word, String.ofList after, by simpa using cut, rfl⟩
      · cases tested
    · intro option
      obtain ⟨word, behind, cut, rfl⟩ := option
      simp [option?, content?, cut, word]

/-- An argument is no option when no word names it. -/
theorem option?_eq_none_iff {arg : Arg} :
    arg.option? = none ↔
      ∀ name value, arg.Pair name value → Text.isWord name.toList = false := by
  rw [Option.eq_none_iff_forall_ne_some]
  constructor
  · intro unread name value pair
    rw [← Bool.not_eq_true]
    intro word
    exact unread (name, classify value) (option?_eq_some_iff.mpr ⟨word, value, pair, rfl⟩)
  · intro nameless option read
    obtain ⟨word, content, pair, -⟩ := option?_eq_some_iff.mp read
    rw [nameless _ _ pair] at word
    cases word

end Arg

namespace Options

/-- The last pair of a name, with its value classified. -/
def LastPair (options : Options) (name : String) (value : Arg) : Prop :=
  ∃ before arg after content, options.args = before ++ arg :: after ∧ arg.Pair name content ∧
    value = Arg.classify content ∧ ∀ later ∈ after, ∀ other, ¬ later.Pair name other

/-- The last pair of a name is one of the arguments. -/
theorem LastPair.exists_pair {options : Options} {name : String} {value : Arg}
    (last : options.LastPair name value) :
    ∃ arg ∈ options.args, ∃ content, arg.Pair name content := by
  obtain ⟨before, arg, after, content, whole, pair, -⟩ := last
  exact ⟨arg, by simp [whole], content, pair⟩

/-- Every pair has a word for its name. -/
def WordNames (options : Options) : Prop :=
  ∀ arg ∈ options.args, ∀ name value, arg.Pair name value → Text.isWord name.toList = true

/-- Only the last pair of a name is ever found, whichever position is asked for. -/
def NamedOnly (options : Options) : Prop :=
  ∀ name position value, options.find? name position = some value ↔ options.LastPair name value

/-- A lookup from the end finds the last item that is read as the name. -/
theorem lookup_reverse_eq_some_iff {α β : Type} {read : α → Option (String × β)} {items : List α}
    {name : String} {value : β} :
    (items.filterMap read).reverse.lookup name = some value ↔
      ∃ before item after, items = before ++ item :: after ∧ read item = some (name, value) ∧
        ∀ later ∈ after, ∀ other, read later ≠ some (name, other) := by
  -- Reading the list from its end makes the last item of a name the first to be met.
  rw [← List.filterMap_reverse, List.lookup_eq_some_iff]
  constructor
  · intro found
    obtain ⟨front, back, split, differ⟩ := found
    obtain ⟨passed, rest, whole, same, tail⟩ := List.filterMap_eq_append_iff.mp split
    obtain ⟨unread, item, earlier, opened, skipped, here, -⟩ := List.filterMap_eq_cons_iff.mp tail
    refine ⟨earlier.reverse, item, (passed ++ unread).reverse, ?_, here, ?_⟩
    · rw [← List.reverse_inj, whole, opened]
      simp
    · intro later member other again
      -- What the lookup passed was read as another name or was not read at all.
      rcases List.mem_append.mp (List.mem_reverse.mp member) with member | member
      · have within : (name, other) ∈ front := by
          rw [← same]
          exact List.mem_filterMap.mpr ⟨later, member, again⟩
        simpa using differ _ within
      · rw [skipped later member] at again
        cases again
  · intro found
    obtain ⟨before, item, after, rfl, here, last⟩ := found
    refine ⟨after.reverse.filterMap read, before.reverse.filterMap read, ?_, ?_⟩
    · simp [here]
    · intro pair member
      obtain ⟨later, within, again⟩ := List.mem_filterMap.mp member
      rw [bne_iff_ne]
      intro same
      exact last later (List.mem_reverse.mp within) pair.2 (by rw [again, same])

/-- A named option is the last pair of a name that is a word. -/
theorem named?_eq_some_iff {options : Options} {name : String} {value : Arg} :
    options.named? name = some value ↔
      Text.isWord name.toList = true ∧ options.LastPair name value := by
  rw [named?, lookup_reverse_eq_some_iff]
  constructor
  · intro found
    obtain ⟨before, arg, after, whole, read, last⟩ := found
    obtain ⟨word, content, pair, rfl⟩ := Arg.option?_eq_some_iff.mp read
    refine ⟨word, before, arg, after, content, whole, pair, rfl, ?_⟩
    intro later member other pair
    exact last later member _ (Arg.option?_eq_some_iff.mpr ⟨word, other, pair, rfl⟩)
  · intro found
    obtain ⟨word, before, arg, after, content, whole, pair, rfl, last⟩ := found
    refine ⟨before, arg, after, whole, Arg.option?_eq_some_iff.mpr ⟨word, content, pair, rfl⟩, ?_⟩
    intro later member other read
    obtain ⟨-, content, pair, -⟩ := Arg.option?_eq_some_iff.mp read
    exact last later member content pair

/-- The unnamed arguments are the ones that are no pair with a word for its name. -/
theorem mem_positional_iff {options : Options} {arg : Arg} :
    arg ∈ options.positional ↔
      arg ∈ options.args ∧ ∀ name value, arg.Pair name value → Text.isWord name.toList = false := by
  rw [positional, List.mem_filter, Option.isNone_iff_eq_none, Arg.option?_eq_none_iff]

/-- A name goes before a position, which counts only when the name has no word or no pair. -/
theorem find?_eq_some_iff {options : Options} {name : String} {position : Nat} {value : Arg} :
    options.find? name position = some value ↔
      (Text.isWord name.toList = true ∧ options.LastPair name value) ∨
        (∀ other, ¬ (Text.isWord name.toList = true ∧ options.LastPair name other)) ∧
          options.positional[position]? = some value := by
  simp only [find?, ← named?_eq_some_iff, ← Option.eq_none_iff_forall_ne_some]
  cases options.named? name with
  | none => simp
  | some found => simp

/-- Words name all pairs when no argument is left to its position. -/
theorem wordNames_of_positional_nil {options : Options} (unnamed : options.positional = []) :
    options.WordNames := by
  intro arg member name value pair
  cases word : Text.isWord name.toList with
  | true => rfl
  | false =>
    -- The cut at the first equals sign is the only one, so no other name can save the pair.
    have left : arg ∈ options.positional := by
      refine mem_positional_iff.mpr ⟨member, ?_⟩
      intro otherName otherValue other
      rw [← (pair.unique other).1, word]
    simp [unnamed] at left

/-- Nothing but the last pair of a name is found when no argument is left to its position. -/
theorem namedOnly_iff_positional_nil {options : Options} :
    options.NamedOnly ↔ options.positional = [] := by
  constructor
  · intro named
    -- No option is named by the empty text, so what it finds depends on the position alone.
    have byPosition : ∀ position, options.find? "" position = options.positional[position]? := by
      intro position
      have unnamed : options.named? "" = none := by
        rw [Option.eq_none_iff_forall_ne_some]
        intro value found
        exact absurd (named?_eq_some_iff.mp found).1 (by decide)
      simp [find?, unnamed]
    cases unnamed : options.positional with
    | nil => rfl
    | cons first others =>
      -- A pair of the empty name would be found behind the last position too.
      have found := (named "" 0 first).mp (by simp [byPosition, unnamed])
      have beyond := (named "" options.positional.length first).mpr found
      simp [byPosition] at beyond
  · intro unnamed name position value
    rw [find?_eq_some_iff, unnamed]
    constructor
    · intro found
      rcases found with ⟨-, pair⟩ | ⟨-, standing⟩
      · exact pair
      · simp at standing
    · intro found
      obtain ⟨arg, member, content, pair⟩ := found.exists_pair
      exact Or.inl ⟨wordNames_of_positional_nil unnamed arg member name content pair, found⟩

/-- The arguments of an option form are pairs. -/
theorem pair_of_ofOptions? {text : String} {directive : Directive}
    (read : Directive.ofOptions? text = some directive) {arg : Arg}
    (member : arg ∈ directive.args) : ∃ name value, arg.Pair name value := by
  have form := Directive.optionForm_of_ofOptions? read
  generalize text.toList = chars at form
  cases form with
  | bare => simp at member
  | pairs =>
    -- Pieces without an equals sign were dropped.
    obtain ⟨segment, kept, rfl⟩ := List.mem_map.mp member
    refine Arg.exists_pair_iff.mpr ?_
    simpa using (List.mem_filter.mp kept).2

/-- An option form leaves no argument to its position when words name all its pairs. -/
theorem positional_nil_iff_wordNames {text : String} {directive : Directive}
    (read : Directive.ofOptions? text = some directive) :
    (Options.mk directive.args).positional = [] ↔ (Options.mk directive.args).WordNames := by
  constructor
  · exact wordNames_of_positional_nil
  · intro words
    rw [List.eq_nil_iff_forall_not_mem]
    intro arg left
    obtain ⟨member, nameless⟩ := mem_positional_iff.mp left
    obtain ⟨name, value, pair⟩ := pair_of_ofOptions? read member
    have word := words arg member name value pair
    rw [nameless name value pair] at word
    cases word

/--
An option form has named options alone exactly when words name all its pairs.

A pair with any other name is an unnamed argument, which a generator may find by its position.
-/
theorem ofOptions?_namedOnly_iff {text : String} {directive : Directive}
    (read : Directive.ofOptions? text = some directive) :
    (∀ arg ∈ directive.args, ∃ name value, arg.Pair name value) ∧
      ((Options.mk directive.args).NamedOnly ↔ (Options.mk directive.args).WordNames) ∧
      ∀ arg, arg ∈ (Options.mk directive.args).positional ↔
        arg ∈ directive.args ∧ ∀ name value, arg.Pair name value →
          Text.isWord name.toList = false :=
  ⟨fun _ member => pair_of_ofOptions? read member,
    namedOnly_iff_positional_nil.trans (positional_nil_iff_wordNames read),
    fun _ => mem_positional_iff⟩

/-- Two pairs that words name are found by their names alone. -/
theorem string_bounds_namedOnly :
    Directive.ofOptions? "@string|min=5&max=6" =
        some ⟨"string", [.text "min=5", .text "max=6"]⟩ ∧
      (Options.mk [.text "min=5", .text "max=6"]).NamedOnly := by
  have read : Directive.ofOptions? "@string|min=5&max=6" =
      some ⟨"string", [.text "min=5", .text "max=6"]⟩ := by decide
  have words := (positional_nil_iff_wordNames read).mp (by decide)
  exact ⟨read, (ofOptions?_namedOnly_iff read).2.1.mpr words⟩

/-- Two pairs whose names hold a hyphen are found as the bounds of an integer. -/
theorem hyphenated_pairs_found_by_position :
    ∃ directive, Directive.ofOptions? "@integer|5-a=1&5-b=2" = some directive ∧
      ¬ (Options.mk directive.args).NamedOnly ∧
      (Options.mk directive.args).integer? "min" 0 = some 5 ∧
      (Options.mk directive.args).integer? "max" 1 = some 5 := by
  refine ⟨⟨"integer", [.text "5-a=1", .text "5-b=2"]⟩, by decide, ?_, by decide, by decide⟩
  rw [namedOnly_iff_positional_nil]
  decide

end Options

end Placeholder

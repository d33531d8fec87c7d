import Mathlib.Data.List.AList
import Placeholder.Proofs.Checked.Argument
import Placeholder.Proofs.Options.Named

/-! Arguments are filed one after another, under their names or at their positions. -/

namespace Placeholder

namespace Arg

/-- A named argument is a pair whose name is a word. -/
def Named (arg : Arg) : Prop :=
  ∃ name content, Text.isWord name.toList = true ∧ arg.Pair name content

/-- An argument that is read as no option is not named. -/
theorem option?_eq_none_iff_not_named {arg : Arg} : arg.option? = none ↔ ¬ arg.Named := by
  rw [option?_eq_none_iff]
  constructor
  · rintro nameless ⟨name, content, word, pair⟩
    simp [nameless name content pair] at word
  · intro unnamed name content pair
    rw [← Bool.not_eq_true]
    exact fun word => unnamed ⟨name, content, word, pair⟩

/-- The arguments of a list that are not named, in their order. -/
inductive Unnamed : List Arg → List Arg → Prop where
  | none : Unnamed [] []
  | passed {arg : Arg} {args unnamed : List Arg} (named : arg.Named)
    (others : Unnamed args unnamed) : Unnamed (arg :: args) unnamed
  | kept {arg : Arg} {args unnamed : List Arg} (nameless : ¬ arg.Named)
    (others : Unnamed args unnamed) : Unnamed (arg :: args) (arg :: unnamed)

end Arg

namespace Options

/-- What is found under a name, or else at a position among the arguments that are not named. -/
inductive Chosen (options : Options) (name : String) (position : Nat) : Option Arg → Prop where
  | named {value : Arg} (word : Text.isWord name.toList = true)
    (last : options.LastPair name value) : Chosen options name position (some value)
  | placed {unnamed : List Arg}
    (absent : ∀ value, ¬ (Text.isWord name.toList = true ∧ options.LastPair name value))
    (others : Arg.Unnamed options.args unnamed) : Chosen options name position unnamed[position]?

/-- The unnamed arguments are those that are read as no option. -/
theorem unnamed_iff {args unnamed : List Arg} :
    Arg.Unnamed args unnamed ↔ positional ⟨args⟩ = unnamed := by
  constructor
  · intro sublist
    -- Each rule passes or keeps the argument that the filter passes or keeps.
    induction sublist with
    | none => rfl
    | @passed arg args unnamed named others ih =>
      have read : arg.option? ≠ none := fun unread =>
        Arg.option?_eq_none_iff_not_named.mp unread named
      rw [← ih]
      simp [positional, read]
    | @kept arg args unnamed nameless others ih =>
      rw [← ih]
      simp [positional, Arg.option?_eq_none_iff_not_named.mpr nameless]
  · rintro rfl
    induction args with
    | nil => exact .none
    | cons arg args ih =>
      by_cases named : arg.Named
      · have read : arg.option? ≠ none := fun unread =>
          Arg.option?_eq_none_iff_not_named.mp unread named
        simpa [positional, read] using Arg.Unnamed.passed named ih
      · have unread := Arg.option?_eq_none_iff_not_named.mpr named
        simpa [positional, unread] using Arg.Unnamed.kept named ih

/-- There is one thing to be found under a name or at a position, and it is what is found. -/
theorem chosen_iff {options : Options} {name : String} {position : Nat} {result : Option Arg} :
    options.Chosen name position result ↔ options.find? name position = result := by
  constructor
  · intro chosen
    cases chosen with
    | named word last => exact find?_eq_some_iff.mpr (Or.inl ⟨word, last⟩)
    | placed absent others =>
      have unread : options.named? name = none := by
        rw [Option.eq_none_iff_forall_ne_some]
        exact fun value found => absent value (named?_eq_some_iff.mp found)
      simp [find?, unread, unnamed_iff.mp others]
  · rintro rfl
    cases found : options.named? name with
    | some value =>
      obtain ⟨word, last⟩ := named?_eq_some_iff.mp found
      simpa [find?, found] using @Chosen.named options name position value word last
    | none =>
      have absent : ∀ value, ¬ (Text.isWord name.toList = true ∧ options.LastPair name value) := by
        intro value last
        simp [named?_eq_some_iff.mpr last] at found
      simpa [find?, found] using @Chosen.placed options name position _ absent (unnamed_iff.mpr rfl)

end Options

/-- Arguments in their order, with all that they are found by. -/
structure Filing where
  args : List Arg
  /-- The indices of the arguments that have a position. -/
  positions : List Nat := []
  /-- The values under names, of which each has one. -/
  named : AList fun _ : String => Arg := ∅

namespace Filing

/-- The number of arguments. -/
def size (filing : Filing) : Nat :=
  filing.args.length

/-- A named argument takes the place of an earlier one, and any other has its index noted. -/
def file (filing : Filing) (entry : Arg × Nat) : Filing :=
  match entry.1.option? with
  | some (name, value) => { filing with named := filing.named.insert name value }
  | none => { filing with positions := filing.positions ++ [entry.2] }

/-- All arguments are filed in their order. -/
def ofArgs (args : List Arg) : Filing :=
  args.zipIdx.foldl file { args }

/-- The value under a name, or else the argument at the index that is noted for a position. -/
def find? (filing : Filing) (name : String) (position : Nat) : Checked (Option Arg) :=
  match filing.named.lookup name with
  | some value => .ok (some value)
  | none =>
    match filing.positions[position]? with
    | some index => some <$> Checked.item filing.args index
    | none => .ok none

/-- The first arguments are filed, each as the options of these arguments have it. -/
structure Holds (filing : Filing) (filed : List Arg) : Prop where
  positions : filing.positions = Checked.positions filed
  named : ∀ name, filing.named.lookup name = Options.named? ⟨filed⟩ name

/-- Before the first argument nothing is filed. -/
theorem holds_empty (args : List Arg) : Holds { args } [] :=
  ⟨rfl, fun _ => rfl⟩

/-- The argument behind those that are filed is filed next. -/
theorem Holds.file {filing : Filing} {filed : List Arg} (holds : filing.Holds filed) (arg : Arg) :
    (filing.file (arg, filed.length)).Holds (filed ++ [arg]) := by
  unfold Filing.file
  cases read : arg.option? with
  | none =>
    refine ⟨?_, fun name => ?_⟩
    · simp [holds.positions, Checked.positions, List.zipIdx_append, read]
    · simp [holds.named, Options.named?, read]
  | some option =>
    obtain ⟨name, value⟩ := option
    refine ⟨?_, fun other => ?_⟩
    · simp [holds.positions, Checked.positions, List.zipIdx_append, read]
    · -- From the end the new value is met first, under its own name.
      by_cases same : other = name
      · subst same
        simp [Options.named?, read]
      · have different : (other == name) = false := beq_eq_false_iff_ne.mpr same
        simp [AList.lookup_insert_ne same, holds.named, Options.named?, read, List.lookup_cons,
          different]

/-- The arguments behind those that are filed are filed one after another. -/
theorem Holds.foldl {filing : Filing} {filed : List Arg} (holds : filing.Holds filed)
    (args : List Arg) :
    ((args.zipIdx filed.length).foldl Filing.file filing).Holds (filed ++ args) := by
  induction args generalizing filing filed with
  | nil => simpa using holds
  | cons arg args ih =>
    have next := ih (holds.file arg)
    simpa using next

/-- Filing leaves the arguments as they are. -/
theorem args_foldl (entries : List (Arg × Nat)) (filing : Filing) :
    (entries.foldl file filing).args = filing.args := by
  induction entries generalizing filing with
  | nil => rfl
  | cons entry entries ih =>
    rw [List.foldl_cons, ih, file]
    split
    · rfl
    · rfl

/-- All arguments are filed in the end. -/
theorem holds_ofArgs (args : List Arg) : (ofArgs args).Holds args :=
  (holds_empty args).foldl args

/-- The arguments of a filing are those it is made of. -/
@[simp] theorem args_ofArgs (args : List Arg) : (ofArgs args).args = args :=
  args_foldl _ _

/-- What is filed is found as among the options, at an index inside the list. -/
theorem find?_ofArgs (args : List Arg) (name : String) (position : Nat) :
    (ofArgs args).find? name position = .ok (Options.find? ⟨args⟩ name position) := by
  have holds := holds_ofArgs args
  rw [← Checked.find?_eq, find?, holds.named, holds.positions, args_ofArgs]
  rfl

/-- An index is noted exactly when the argument there is not named. -/
theorem mem_positions_iff {args : List Arg} {index : Nat} :
    index ∈ (ofArgs args).positions ↔ ∃ within : index < args.length, ¬ args[index].Named := by
  rw [(holds_ofArgs args).positions]
  simp only [Checked.positions, List.mem_map, List.mem_filter, Option.isNone_iff_eq_none,
    Arg.option?_eq_none_iff_not_named, Prod.exists, exists_eq_right,
    List.mk_mem_zipIdx_iff_getElem?]
  constructor
  · rintro ⟨arg, found, nameless⟩
    obtain ⟨within, rfl⟩ := List.getElem?_eq_some_iff.mp found
    exact ⟨within, nameless⟩
  · rintro ⟨within, nameless⟩
    exact ⟨_, List.getElem?_eq_getElem within, nameless⟩

/-- Indices are noted in their order, each of them once. -/
theorem positions_increase (args : List Arg) : (ofArgs args).positions.Pairwise (· < ·) := by
  rw [(holds_ofArgs args).positions, Checked.positions]
  have all : (args.zipIdx.map Prod.snd).Pairwise (· < ·) := by
    rw [List.zipIdx_map_snd, ← List.range_eq_range']
    exact List.pairwise_lt_range
  exact all.sublist (List.filter_sublist.map Prod.snd)

/--
Arguments are found by the last one of a name, or else by a position among those without a name.

All of them stay in their order and are counted, and an index is noted for exactly those without a
name, so that every index that is noted leads to an argument.
-/
theorem filed_arguments_are_found (args : List Arg) :
    (ofArgs args).args = args ∧ (ofArgs args).size = args.length ∧
      (ofArgs args).positions.Pairwise (· < ·) ∧
      (∀ index, index ∈ (ofArgs args).positions ↔
        ∃ within : index < args.length, ¬ args[index].Named) ∧
      ∀ name position, ∃ found, (ofArgs args).find? name position = .ok found ∧
        Options.find? ⟨args⟩ name position = found ∧
        ∀ result, (Options.mk args).Chosen name position result ↔ result = found := by
  refine ⟨args_ofArgs args, congrArg List.length (args_ofArgs args), positions_increase args,
    fun index => mem_positions_iff, fun name position => ?_⟩
  -- The three ways to find an argument agree, and the rules leave no choice.
  refine ⟨_, find?_ofArgs args name position, rfl, fun result => ?_⟩
  rw [Options.chosen_iff, eq_comm]

/-- Positions pass over what is named, and a name goes before any position. -/
example :
    let args : List Arg := [.number 3, .text "len=33", .text "bar"]
    (ofArgs args).positions = [0, 2] ∧ Options.find? ⟨args⟩ "len" 0 = some (.number 33) ∧
      Options.find? ⟨args⟩ "count" 1 = some (.text "bar") := by
  decide

end Filing

end Placeholder

import Placeholder.Proofs.Association
import Placeholder.Proofs.Directive.Forms
import Placeholder.Proofs.Options.Named

/-! Options are found alike whether tokens give them by position or pairs give them by name. -/

namespace Placeholder.Options

open Directive (pairText PlainPair)

/-- Options agree on names when each name finds the same at its own position. -/
def AgreeOn (names : List String) (left right : Options) : Prop :=
  ∀ (position : Nat) (name : String), names[position]? = some name →
    left.find? name position = right.find? name position

/-- A token that stays one segment of a call and gives an option by its position. -/
structure PlainToken (token : String) : Prop where
  nonempty : token ≠ ""
  comma : ',' ∉ token.toList
  line : '\n' ∉ token.toList
  unnamed : ∀ name rest, Text.isWord name.toList = true → token ≠ name ++ "=" ++ rest

/--
Pairs that name values in any order.

Pairs that a later one overrides and pairs of other names may stand anywhere among them.
-/
inductive Naming (names values : List String) : List (String × String) → Prop where
  | ordered {pairs : List (String × String)} (order : pairs.Perm (names.zip values)) :
    Naming names values pairs
  | overridden {before after : List (String × String)} {name value : String}
    (naming : Naming names values (before ++ after)) (later : name ∈ after.map Prod.fst) :
    Naming names values (before ++ (name, value) :: after)
  | unrelated {before after : List (String × String)} {name value : String}
    (naming : Naming names values (before ++ after)) (other : name ∉ names) :
    Naming names values (before ++ (name, value) :: after)

/-- A name is paired with the value at its position, unless the values end before that. -/
theorem mem_zip_iff {names values : List String} (distinct : names.Nodup) {position : Nat}
    {name : String} (listed : names[position]? = some name) {value : String} :
    (name, value) ∈ names.zip values ↔ values[position]? = some value := by
  -- A pair of the two lists stands at one position in both of them.
  rw [List.mem_iff_getElem?]
  simp only [List.getElem?_zip_eq_some]
  constructor
  · intro paired
    obtain ⟨place, here, there⟩ := paired
    -- A name that is listed once has one position.
    have within : place < names.length := (List.getElem?_eq_some_iff.mp here).1
    have same : place = position :=
      (List.getElem?_inj within distinct).mp (here.trans listed.symm)
    rw [← same, there]
  · intro there
    exact ⟨position, listed, there⟩

/-- The last pair of a listed name has the value at the name's position. -/
theorem Naming.lookup_reverse {names values : List String} {pairs : List (String × String)}
    (naming : Naming names values pairs) (distinct : names.Nodup) {position : Nat}
    {name : String} (listed : names[position]? = some name) :
    pairs.reverse.lookup name = values[position]? := by
  -- Idle pairs are passed by the lookup from the end, and without them each name stands once.
  induction naming with
  | @ordered pairs order =>
    have shuffled : pairs.reverse.Perm (names.zip values) := (List.reverse_perm pairs).trans order
    have once : (pairs.reverse.map Prod.fst).Nodup := by
      rw [(shuffled.map Prod.fst).nodup_iff, List.zip_eq_zip_take_min, List.map_fst_zip (by simp)]
      exact distinct.sublist (List.take_sublist _ _)
    -- Where each name stands once, the order of the pairs does not matter.
    refine Option.ext fun value => ?_
    rw [Association.lookup_eq_some_iff_mem once, shuffled.mem_iff, mem_zip_iff distinct listed]
  | @overridden before after other value _ later ih =>
    rw [← ih]
    by_cases same : name = other
    · exact Association.lookup_reverse_idle (Or.inr (same ▸ later))
    · exact Association.lookup_reverse_idle (Or.inl same)
  | @unrelated before after other value _ foreign ih =>
    rw [← ih]
    have different : name ≠ other := by
      rintro rfl
      exact foreign (List.mem_of_getElem? listed)
    exact Association.lookup_reverse_idle (Or.inl different)

/-- A text is read as no option when it does not start with a word and an equals sign. -/
theorem option?_text_eq_none_iff {token : String} :
    (Arg.text token).option? = none ↔
      ∀ name rest, Text.isWord name.toList = true → token ≠ name ++ "=" ++ rest := by
  rw [Arg.option?_eq_none_iff]
  constructor
  · intro nameless name rest word same
    have pair : (Arg.text token).Pair name rest :=
      ⟨Text.not_mem_word word (by decide), congrArg Arg.text same⟩
    simp [nameless name rest pair] at word
  · intro unnamed name rest pair
    rw [← Bool.not_eq_true]
    intro word
    exact unnamed name rest word (Arg.text.inj pair.written)

instance (token : String) : Decidable (PlainToken token) :=
  decidable_of_iff
    (token ≠ "" ∧ ',' ∉ token.toList ∧ '\n' ∉ token.toList ∧ (Arg.text token).option? = none)
    ⟨fun plain => ⟨plain.1, plain.2.1, plain.2.2.1, option?_text_eq_none_iff.mp plain.2.2.2⟩,
      fun plain => ⟨plain.nonempty, plain.comma, plain.line,
        option?_text_eq_none_iff.mpr plain.unnamed⟩⟩

/-- A plain token is no named option, whether it is a number or a text. -/
theorem PlainToken.option?_classify {token : String} (plain : PlainToken token) :
    (Arg.classify token).option? = none := by
  rw [Arg.classify]
  split
  · -- Numbers have no text to be read as a pair.
    rfl
  · exact option?_text_eq_none_iff.mpr plain.unnamed

/-- Plain tokens are found by their positions alone. -/
theorem find?_tokens {tokens : List String} (plain : ∀ token ∈ tokens, PlainToken token)
    (name : String) (position : Nat) :
    find? ⟨tokens.map Arg.classify⟩ name position = (tokens[position]?).map Arg.classify := by
  -- No token is read as an option, so every one of them keeps its position.
  have unread : ∀ arg ∈ tokens.map Arg.classify, arg.option? = none :=
    List.forall_mem_map.mpr fun token member => (plain token member).option?_classify
  have unnamed : (tokens.map Arg.classify).filterMap Arg.option? = [] :=
    List.filterMap_eq_nil_iff.mpr unread
  have kept : positional ⟨tokens.map Arg.classify⟩ = tokens.map Arg.classify := by
    rw [positional, List.filter_eq_self]
    intro arg member
    simp [unread arg member]
  rw [find?, named?, kept, unnamed]
  simp

/-- A plain pair is an option with a classified value. -/
theorem option?_pairText {pair : String × String} (plain : PlainPair pair) :
    (Arg.text (pairText pair)).option? = some (pair.1, Arg.classify pair.2) :=
  Arg.option?_eq_some_iff.mpr ⟨plain.word, pair.2,
    ⟨Text.not_mem_word plain.word (by decide), rfl⟩, rfl⟩

/-- Plain pairs are found by their names alone, the last of each name. -/
theorem find?_pairs {pairs : List (String × String)} (plain : ∀ pair ∈ pairs, PlainPair pair)
    (name : String) (position : Nat) :
    find? ⟨pairs.map fun pair => .text (pairText pair)⟩ name position =
      (pairs.reverse.lookup name).map Arg.classify := by
  -- Every pair is read as an option, so none of them is left to a position.
  have read : (pairs.map fun pair => Arg.text (pairText pair)).filterMap Arg.option? =
      pairs.map fun pair => (pair.1, Arg.classify pair.2) := by
    rw [List.filterMap_map, ← List.filterMap_eq_map]
    exact List.filterMap_congr fun pair member => option?_pairText (plain pair member)
  have unplaced : positional ⟨pairs.map fun pair => .text (pairText pair)⟩ = [] := by
    rw [positional, List.filter_eq_nil_iff, List.forall_mem_map]
    intro pair member
    simp [option?_pairText (plain pair member)]
  rw [find?, named?, unplaced, read, ← List.map_reverse, Association.lookup_map_snd]
  simp

/-- Tokens by position and pairs that name the same values agree on the names. -/
theorem agreeOn_of_naming {names tokens : List String} {pairs : List (String × String)}
    (distinct : names.Nodup) (plainTokens : ∀ token ∈ tokens, PlainToken token)
    (plainPairs : ∀ pair ∈ pairs, PlainPair pair) (naming : Naming names tokens pairs) :
    AgreeOn names ⟨tokens.map Arg.classify⟩ ⟨pairs.map fun pair => .text (pairText pair)⟩ := by
  -- Both sides classify the value that belongs to the name's position, if there is one.
  intro position name listed
  rw [find?_tokens plainTokens, find?_pairs plainPairs, naming.lookup_reverse distinct listed]

end Placeholder.Options

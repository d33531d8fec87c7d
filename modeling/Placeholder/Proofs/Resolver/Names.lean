import Mathlib.Data.List.TFAE
import Placeholder.Proofs.Directive.Printing
import Placeholder.Proofs.Options.Named
import Placeholder.Proofs.Registry.History
import Placeholder.Proofs.Resolver.Fallback
import Placeholder.Proofs.Resolver.Forms

/-! One rule decides what may be registered, called, asked for by options and named as an option. -/

namespace Placeholder

/-- An empty table registers exactly the words. -/
theorem Table.register_empty_ok_iff {name : String} {generator : Generator} :
    (∃ table, register {} name generator = .ok table) ↔ Text.isWord name.toList = true := by
  -- No name was called for before, so the name alone decides.
  simp only [Records.empty.register_eq_ok_iff]
  simp

/-- A name that a table finds after any calls is a word. -/
theorem Table.word_of_lookup {calls : List (String × Generator)} {name : String}
    {generator : Generator} (found : (ofCalls calls).lookup name = some generator) :
    Text.isWord name.toList = true := by
  rw [(records_ofCalls calls).lookup] at found
  split at found
  · assumption
  · cases found

namespace Directive

/-- The opcode of an option form is a word. -/
theorem word_of_ofOptions? {text : String} {directive : Directive}
    (read : ofOptions? text = some directive) :
    Text.isWord directive.opcode.toList = true := by
  -- Both shapes of the text have the word in front.
  have form := optionForm_of_ofOptions? read
  generalize text.toList = chars at form
  cases form with
  | bare word => simpa using word
  | pairs word => simpa using word

/-- Whichever way a directive is read, its opcode is a word. -/
theorem word_of_read {text : String} {directive : Directive}
    (read : ofCall? text = some directive ∨ ofOptions? text = some directive) :
    Text.isWord directive.opcode.toList = true := by
  rcases read with called | read
  · exact (normal_of_ofCall? called).word
  · exact word_of_ofOptions? read

/-- A call without arguments reads as its opcode alone when that is a word. -/
theorem ofCall?_empty_iff {name : String} :
    ofCall? ("@" ++ name ++ "()") = some ⟨name, []⟩ ↔ Text.isWord name.toList = true := by
  constructor
  · intro called
    have word := word_of_read (Or.inl called)
    exact word
  · intro word
    -- No segment stands between the parentheses.
    have same : "@" ++ name ++ "()" = callText name [] := by
      simp [callText, ← String.toList_inj]
    rw [same, ofCall?_callText word (by simp), List.map_nil]

/-- A bare name reads as an option form when it is a word. -/
theorem ofOptions?_bare_iff {name : String} :
    ofOptions? ("@" ++ name) = some ⟨name, []⟩ ↔ Text.isWord name.toList = true := by
  constructor
  · intro read
    have word := word_of_read (Or.inr read)
    exact word
  · intro word
    have form := OptionForm.bare word
    rw [String.ofList_toList] at form
    exact ofOptions?_eq_some_iff.mpr (by simpa [String.toList_append] using form)

/-- No call stands in a text without an opening parenthesis. -/
theorem not_holdsCall_of_not_mem {text : List Char} (unopened : '(' ∉ text) :
    ¬ HoldsCall text := by
  intro holds
  obtain ⟨site, -, rfl⟩ := holds
  simp [CallSite.text, CallSite.tail] at unopened

end Directive

namespace Arg

/-- A token names an option when the text in front of its equals sign is a word. -/
theorem option?_token_iff {name value : String} :
    (text (name ++ "=" ++ value)).option? = some (name, classify value) ↔
      Text.isWord name.toList = true := by
  rw [option?_eq_some_iff]
  constructor
  · exact fun named => named.1
  · intro word
    exact ⟨word, value, ⟨Text.not_mem_word word (by decide), rfl⟩, rfl⟩

end Arg

/-- A lone token is found by the name in front of its equals sign when that is a word. -/
theorem Options.find?_token_iff {name value : String} :
    find? ⟨[.text (name ++ "=" ++ value)]⟩ name 0 = some (.classify value) ↔
      Text.isWord name.toList = true := by
  constructor
  · intro found
    rcases find?_eq_some_iff.mp found with ⟨word, -⟩ | ⟨-, standing⟩
    · exact word
    · -- The token itself would be left to its position, and it is longer than its value.
      have member := (mem_positional_iff.mp (List.mem_of_getElem? standing)).1
      rw [List.mem_singleton, Arg.classify] at member
      split at member
      · cases member
      · have lengths := congrArg String.length (Arg.text.inj member)
        simp only [String.length_append] at lengths
        have equals : "=".length = 1 := rfl
        omega
  · intro word
    simp [find?, named?, Arg.option?_token_iff.mpr word]

namespace Resolver

/-- A name is reached when all three ways of writing it are carried out by its generator. -/
structure Reached (resolver : Resolver) (name : String) (generator : Generator) : Prop where
  call : ∀ blob : String, '\n' ∉ blob.toList →
    resolver.resolve ("@" ++ name ++ "(" ++ blob ++ ")") =
        some <$> generator ⟨Directive.callArgs blob.toList⟩ ∧
      resolver.mock ("@" ++ name ++ "(" ++ blob ++ ")") =
        some <$> generator ⟨Directive.callArgs blob.toList⟩
  options : ∀ line : String, '\n' ∉ line.toList →
    Directive.ofOptions? ("@" ++ name ++ "|" ++ line) =
        some ⟨name, Directive.optionArgs line.toList⟩ ∧
      -- A call inside the options would be answered in their place.
      (¬ HoldsCall ("@" ++ name ++ "|" ++ line).toList →
        resolver.mock ("@" ++ name ++ "|" ++ line) =
          some <$> generator ⟨Directive.optionArgs line.toList⟩)
  bare : resolver.mock ("@" ++ name) = some <$> generator ⟨[]⟩

/-- A name that a table has registered is reached, unless it is built in. -/
theorem reached_of_lookup {clock : Clock} {calls : List (String × Generator)} {name : String}
    {generator : Generator} (found : (Table.ofCalls calls).lookup name = some generator)
    (foreign : Generator.builtin? clock name = none) :
    Reached ⟨clock, .table (Table.ofCalls calls)⟩ name generator := by
  have word := Table.word_of_lookup found
  -- Whatever the arguments are, the directive is left to the table.
  have carried : ∀ args, (Resolver.mk clock (.table (Table.ofCalls calls))).invoke ⟨name, args⟩ =
      some <$> generator ⟨args⟩ := fun _ => invoke_of_foreign foreign found
  constructor
  · intro blob line
    have answers := answers_of_ofCall? ⟨clock, .table (Table.ofCalls calls)⟩
      (Directive.ofCall?_closed word line)
    rw [answers.1, answers.2, carried]
    exact ⟨rfl, rfl⟩
  · intro line oneLine
    have read := Directive.ofOptions?_line word oneLine
    refine ⟨read, ?_⟩
    intro absent
    rw [mock_of_asks _ (.inr ⟨absent, Directive.ofOptions?_eq_some_iff.mp read⟩), carried]
  · have form := Directive.ofOptions?_eq_some_iff.mp (Directive.ofOptions?_bare_iff.mpr word)
    -- A word has no parenthesis that could open a call.
    have absent : ¬ HoldsCall ("@" ++ name).toList := by
      refine Directive.not_holdsCall_of_not_mem ?_
      simpa [String.toList_append] using Text.not_mem_word word (by decide)
    rw [mock_of_asks _ (.inr ⟨absent, form⟩), carried]

/--
A name may be registered exactly when it can be called, asked for and named as an option.

Whatever has been registered is then reached, unless it is built in, and no opcode that is ever
read is refused as invalid.
-/
theorem one_rule_for_names (name : String) (generator : Generator) :
    [∃ table, Table.register {} name generator = .ok table,
      Directive.ofCall? ("@" ++ name ++ "()") = some ⟨name, []⟩,
      Directive.ofOptions? ("@" ++ name) = some ⟨name, []⟩,
      ∀ value, (Arg.text (name ++ "=" ++ value)).option? = some (name, .classify value),
      ∀ value, Options.find? ⟨[.text (name ++ "=" ++ value)]⟩ name 0 =
        some (.classify value)].TFAE ∧
    (∀ clock calls, (Table.ofCalls calls).lookup name = some generator →
      Generator.builtin? clock name = none →
      Reached ⟨clock, .table (Table.ofCalls calls)⟩ name generator) ∧
    ∀ text directive,
      Directive.ofCall? text = some directive ∨ Directive.ofOptions? text = some directive →
      ∀ (table : Table) (other : String),
        table.register directive.opcode generator ≠ .error (.invalidName other) := by
  refine ⟨?_, fun _ _ => reached_of_lookup, ?_⟩
  · -- Each of the five holds of the words and of nothing else.
    refine List.tfae_of_forall (Text.isWord name.toList = true) _ ?_
    simp only [Table.register_empty_ok_iff, Directive.ofCall?_empty_iff,
      Directive.ofOptions?_bare_iff, Arg.option?_token_iff, Options.find?_token_iff, forall_const]
    simp
  · intro text directive read table other refused
    simp only [Table.register, Directive.word_of_read read, Bool.not_true, Bool.false_eq_true,
      if_false] at refused
    split at refused
    · cases refused
    · cases refused

/-- A name with an underscore and a digit is registered behind a refused one and reached. -/
theorem underscored_name_reached :
    ((Resolver.mk ⟨0, 0⟩ (.table (Table.ofCalls [("a-b", Generator.generatePick),
        ("b_2", Generator.generateBoolean)]))).mock "@b_2").run (Source.ofTape #[] 0) =
      (some <$> Generator.generateBoolean ⟨[]⟩ : Draw (Option Value)).run (Source.ofTape #[] 0) ∧
    ∀ (table : Table) (other : String), table.register "b_2" Generator.generateBoolean ≠
      .error (.invalidName other) := by
  have rules := one_rule_for_names "b_2" Generator.generateBoolean
  have reached := rules.2.1 ⟨0, 0⟩ [("a-b", Generator.generatePick),
    ("b_2", Generator.generateBoolean)] rfl rfl
  have read : Directive.ofCall? "x@@b_2(1)" = some ⟨"b_2", [.number 1]⟩ := by decide
  have bare : "@b_2" = "@" ++ "b_2" := by decide
  refine ⟨?_, rules.2.2 _ _ (.inl read)⟩
  rw [bare, reached.bare]

end Resolver

end Placeholder

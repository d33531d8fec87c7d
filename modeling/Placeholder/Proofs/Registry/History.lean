import Mathlib.Data.List.Dedup
import Mathlib.Data.List.Induction
import Placeholder.Proofs.Registry.Table

/-! After any calls a table holds, for each word that was called for, the generator of the first. -/

namespace Placeholder.Table

/-- A registration in place, which leaves the table as it stands when the answer is returned. -/
def enter (name : String) (generator : Generator) : StateM Table (Except RegistryError Unit) := do
  if !Text.isWord name.toList then return .error (.invalidName name)
  if (← get).contains name then return .error (.alreadyRegistered name)
  modify fun table => { entries := (name, generator) :: table.entries }
  return .ok ()

/-- The answer to a call. -/
def answer (table : Table) (call : String × Generator) : Except RegistryError Unit :=
  ((enter call.1 call.2).run table).1

/-- The table that a call leaves behind. -/
def after (table : Table) (call : String × Generator) : Table :=
  ((enter call.1 call.2).run table).2

/-- The table that calls leave behind, starting from the empty one. -/
def ofCalls (calls : List (String × Generator)) : Table :=
  calls.foldl after {}

/-- A registration in place refuses before it changes anything. -/
theorem enter_run (table : Table) (name : String) (generator : Generator) :
    (enter name generator).run table =
      match table.register name generator with
      | .ok next => (.ok (), next)
      | .error cause => (.error cause, table) := by
  -- The name is tested first, then what the table has under it.
  cases word : Text.isWord name.toList with
  | false =>
    simp only [enter, register, word, Bool.not_false, if_true]
    rfl
  | true =>
    simp only [enter, register, word, Bool.not_true, Bool.false_eq_true, if_false,
      StateT.run_bind, StateT.run_get, pure_bind]
    cases table.contains name with
    | true => rfl
    | false => rfl

variable {table next : Table} {call : String × Generator} {calls : List (String × Generator)}

/-- A call is refused in place for the cause that registering gives. -/
theorem answer_eq_error_iff {cause : RegistryError} :
    table.answer call = .error cause ↔ table.register call.1 call.2 = .error cause := by
  -- The answer leaves out the table and keeps the cause.
  rw [answer, enter_run]
  cases table.register call.1 call.2 with
  | ok next => simp
  | error other => simp

/-- A call is carried out in place when registering gives a table. -/
theorem answer_eq_ok_iff :
    table.answer call = .ok () ↔ ∃ next, table.register call.1 call.2 = .ok next := by
  rw [answer, enter_run]
  cases table.register call.1 call.2 with
  | ok next => simp
  | error cause => simp

/-- A call that is carried out leaves the table that registering gives. -/
theorem after_of_ok (registered : table.register call.1 call.2 = .ok next) :
    table.after call = next := by
  rw [after, enter_run, registered]

/-- A refused call leaves the table as it was. -/
theorem after_of_error {cause : RegistryError}
    (refused : table.register call.1 call.2 = .error cause) : table.after call = table := by
  rw [after, enter_run, refused]

/-- A call is refused for the causes that its name has after the earlier names. -/
theorem Records.answer_eq_error_iff (records : table.Records calls) {cause : RegistryError} :
    table.answer call = .error cause ↔ Refusal (calls.map Prod.fst) call.1 cause :=
  Table.answer_eq_error_iff.trans records.register_eq_error_iff

/-- A call for a word that is new is carried out, and no other. -/
theorem Records.answer_eq_ok_iff (records : table.Records calls) :
    table.answer call = .ok () ↔
      Text.isWord call.1.toList = true ∧ call.1 ∉ calls.map Prod.fst := by
  simp only [Table.answer_eq_ok_iff, records.register_eq_ok_iff]
  exact ⟨fun registered => registered.elim fun _ accepted => accepted.1,
    fun accepted => ⟨_, accepted, rfl⟩⟩

/-- A call that is not carried out leaves a table like the one before. -/
theorem after_alike (refused : table.answer call ≠ .ok ()) : (table.after call).Alike table := by
  cases registered : table.register call.1 call.2 with
  | ok next => exact absurd (Table.answer_eq_ok_iff.mpr ⟨next, registered⟩) refused
  | error cause =>
    rw [after_of_error registered]
    exact Alike.refl table

/-- One more call leaves a table that records it with the others, whatever its answer. -/
theorem Records.after (records : table.Records calls) (call : String × Generator) :
    (table.after call).Records (calls ++ [call]) := by
  -- An accepted call adds its entry, and a refused one was preceded by what the table records.
  cases registered : table.register call.1 call.2 with
  | ok next =>
    rw [after_of_ok registered]
    exact records.accepted registered
  | error cause =>
    rw [after_of_error registered]
    exact records.refused (records.register_eq_error_iff.mp registered) call.2

/-- Any calls leave a table that records them. -/
theorem records_ofCalls (calls : List (String × Generator)) : (ofCalls calls).Records calls := by
  -- The last call is made on the table that the calls before it leave.
  induction calls using List.reverseRecOn with
  | nil => exact Records.empty
  | append_singleton earlier call ih =>
    rw [ofCalls, List.foldl_append]
    exact ih.after call

/-- The names of a table are as many as the different words that were called for. -/
theorem Records.size_eq (records : table.Records calls) :
    table.size =
      ((calls.map Prod.fst).filter fun name => Text.isWord name.toList).dedup.length := by
  -- The names of the table and the different words are the same names, each of them once.
  rw [size_eq_length_keys]
  refine List.Perm.length_eq ?_
  rw [List.perm_ext_iff_of_nodup records.distinct (List.nodup_dedup _)]
  intro name
  rw [records.mem_keys, List.mem_dedup, List.mem_filter, and_comm]

/--
The table after any calls answers for the first call of every word.

Each call is refused for a name that is no word or was called for before, and then changes
nothing. The order of the calls does not show in the text of the table.
-/
theorem ofCalls_answers_for_first_calls (calls : List (String × Generator)) :
    (∀ earlier call later, calls = earlier ++ call :: later →
      ((ofCalls earlier).answer call = .error (.invalidName call.1) ↔
        Text.isWord call.1.toList = false) ∧
      ((ofCalls earlier).answer call = .error (.alreadyRegistered call.1) ↔
        Text.isWord call.1.toList = true ∧ call.1 ∈ earlier.map Prod.fst) ∧
      ((ofCalls earlier).answer call = .ok () ↔
        Text.isWord call.1.toList = true ∧ call.1 ∉ earlier.map Prod.fst) ∧
      ((ofCalls earlier).answer call ≠ .ok () →
        ((ofCalls earlier).after call).Alike (ofCalls earlier))) ∧
    (∀ name, (ofCalls calls).lookup name =
      if Text.isWord name.toList then calls.lookup name else none) ∧
    (∀ name, (ofCalls calls).contains name = ((ofCalls calls).lookup name).isSome) ∧
    (ofCalls calls).size =
      ((calls.map Prod.fst).filter fun name => Text.isWord name.toList).dedup.length ∧
    ((ofCalls calls).isEmpty = true ↔ (ofCalls calls).size = 0) ∧
    (∃ names : List String, names.Pairwise (· < ·) ∧
      (∀ name, name ∈ names ↔
        Text.isWord name.toList = true ∧ name ∈ calls.map Prod.fst) ∧
      (ofCalls calls).summary = summaryOf names) ∧
    (∀ others : List (String × Generator), others.Perm calls →
      (ofCalls others).summary = (ofCalls calls).summary) := by
  have records := records_ofCalls calls
  refine ⟨?_, records.lookup, contains_eq_isSome _, records.size_eq, ?_, ?_, ?_⟩
  · intro earlier call later _
    -- The table of the earlier calls records them, which decides the answer.
    have before := records_ofCalls earlier
    exact ⟨before.answer_eq_error_iff.trans refusal_invalid_iff,
      before.answer_eq_error_iff.trans refusal_repeated_iff, before.answer_eq_ok_iff, after_alike⟩
  · rw [isEmpty, size, List.isEmpty_iff, List.length_eq_zero_iff]
  · refine ⟨(ofCalls calls).names, names_increase records.distinct, ?_, summary_eq _⟩
    intro name
    rw [mem_names, records.mem_keys]
  · -- The same names were called for, and there is one way to show them.
    intro others order
    rw [summary_eq, summary_eq, names_eq (records_ofCalls others).distinct records.distinct]
    intro name
    rw [(records_ofCalls others).mem_keys, records.mem_keys, (order.map Prod.fst).mem_iff]

/-- A second call for a word is refused, and the word keeps its first generator. -/
theorem second_call_leaves_first :
    (ofCalls [("b", Generator.generateBoolean), ("b-c", Generator.generatePick),
        ("a", Generator.generatePick)]).answer ("b", Generator.generateIdentifier) =
      .error (.alreadyRegistered "b") ∧
    (ofCalls [("b", Generator.generateBoolean), ("b-c", Generator.generatePick),
        ("a", Generator.generatePick), ("b", Generator.generateIdentifier)]).lookup "b" =
      some Generator.generateBoolean := by
  have history := ofCalls_answers_for_first_calls [("b", Generator.generateBoolean),
    ("b-c", Generator.generatePick), ("a", Generator.generatePick),
    ("b", Generator.generateIdentifier)]
  exact ⟨(history.1 [_, _, _] _ [] rfl).2.1.mpr (by decide), (history.2.1 "b").trans rfl⟩

end Placeholder.Table

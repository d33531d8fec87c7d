import Placeholder.Proofs.Command.Outcome
import Placeholder.Proofs.Random.Results
import Placeholder.Proofs.Resolver.Outcome
import Placeholder.Proofs.Value.Printed

/-! JSON output has one line for each answer, and plain output leaves absent answers out. -/

namespace Placeholder

namespace Resolver

/-- The answers to each text in turn, which is resolved a number of times. -/
def answers (resolver : Resolver) (count : Nat) (texts : List String) :
    Draw (List (List (Option Value))) :=
  texts.mapM fun text => Draw.times count (resolver.mock text)

/-- A text asks for an opcode that is unknown. -/
def Absent (resolver : Resolver) (text : String) : Prop :=
  ∃ directive, Asks text.toList directive ∧ resolver.Unknown directive.opcode

/-- The answers to a text are as many as were asked for, all of them absent or all present. -/
structure Answered (resolver : Resolver) (count : Nat) (text : String)
    (answers : List (Option Value)) : Prop where
  length : answers.length = count
  absent : ∀ answer ∈ answers, answer = none ↔ resolver.Absent text

/-- The texts are answered one by one. -/
theorem answers_answered (resolver : Resolver) (count : Nat) (texts : List String) :
    (resolver.answers count texts).Always (List.Forall₂ (resolver.Answered count) texts) := by
  refine Draw.always_mapM fun text _ source => ?_
  have absent : (resolver.mock text).Always fun answer => answer = none ↔ resolver.Absent text :=
    fun source => mock_absent_iff
  obtain ⟨length, each⟩ := Draw.always_times absent count source
  exact ⟨length, each⟩

/-- The lines are what can be shown of the answers. -/
theorem lines_eq_answers (resolver : Resolver) (count : Nat) (json : Bool) (texts : List String) :
    resolver.lines count json texts =
      (fun answers => answers.flatten.filterMap (Value.render · json)) <$>
        resolver.answers count texts := by
  -- What is shown of an answer does not change what is drawn.
  have shown : ∀ text, (Draw.times count do return Value.render (← resolver.mock text) json) =
      List.map (Value.render · json) <$> Draw.times count (resolver.mock text) :=
    fun text => Command.mapM_map_result (Value.render · json) (fun _ => resolver.mock text) _
  unfold lines answers
  simp only [shown]
  rw [Command.mapM_map_result, bind_pure_comp, Functor.map_map]
  simp only [← List.map_flatten, List.filterMap_map, Function.comp_def, id]

/-- The plain entries for the answers to a text, in their order. -/
def entries (answers : List (Option Value)) : List String :=
  answers.filterMap (·.map Value.toPlain)

/-- All the answers are entered, or none of them because the text asks for an unknown opcode. -/
structure Entered (resolver : Resolver) (count : Nat) (text : String)
    (entries : List String) : Prop where
  present : ¬ resolver.Absent text → entries.length = count
  absent : resolver.Absent text → entries = []

/-- Answers that are all present or all absent are all entered or none is. -/
theorem Answered.entered {resolver : Resolver} {count : Nat} {text : String}
    {answers : List (Option Value)} (answered : resolver.Answered count text answers) :
    resolver.Entered count text (entries answers) := by
  constructor
  · intro present
    rw [← answered.length, entries, List.length_filterMap_eq_countP, List.countP_eq_length]
    intro answer member
    rw [Option.isSome_map, Option.isSome_iff_ne_none]
    exact fun none => present ((answered.absent answer member).mp none)
  · intro absent
    rw [entries, List.filterMap_eq_nil_iff]
    intro answer member
    rw [(answered.absent answer member).mpr absent, Option.map_none]

end Resolver

namespace Command

/-- The JSON text of an answer, which is null for one that is absent. -/
def answerText : Option Value → String
  | some value => value.toJson
  | none => "null"

/-- An output frames texts when it splits at line feeds into them, with nothing behind the last. -/
structure Frames (output : String) (texts : List String) : Prop where
  split : Text.pieces '\n' output.toList = texts.map String.toList ++ [[]]
  clean : ∀ text ∈ texts, '\n' ∉ text.toList

/-- The JSON text of an answer has no line feed in it. -/
theorem lineFeed_not_mem_answerText (answer : Option Value) :
    '\n' ∉ (answerText answer).toList := by
  cases answer with
  | none => decide
  | some value => exact value.printed_toJson.not_mem_lineFeed

/-- Lines without line feeds are framed by the output that they are printed as. -/
theorem frames_output {lines : List String} (clean : ∀ line ∈ lines, '\n' ∉ line.toList) :
    Frames (Outcome.success lines).output lines := by
  refine ⟨Text.pieces_eq_iff.mpr ⟨by simp, ?_, ?_⟩, clean⟩
  · intro segment member
    rcases List.mem_append.mp member with printed | last
    · obtain ⟨line, among, rfl⟩ := List.mem_map.mp printed
      exact clean line among
    · rw [List.mem_singleton.mp last]
      exact List.not_mem_nil
  · -- Each line is followed by one line feed, the last one too.
    show _ = (String.join (lines.map (· ++ "\n"))).toList
    rw [String.toList_join]
    clear clean
    induction lines with
    | nil => rfl
    | cons line lines ih =>
      obtain ⟨piece, others, more⟩ :
          ∃ piece others, lines.map String.toList ++ [[]] = piece :: others :=
        List.exists_cons_of_ne_nil (by simp)
      rw [List.map_cons, List.map_cons, List.flatMap_cons, ← ih, List.cons_append, more,
        List.intercalate_cons_cons, String.toList_append]
      rfl

/-- The JSON lines are the texts of the answers. -/
theorem resolveAll_json (resolver : Resolver) (count : Nat) (texts : List String) :
    resolveAll resolver count true texts =
      (fun answers => answers.flatten.map answerText) <$> resolver.answers count texts := by
  have shown : (Value.render · true) = fun answer => some (answerText answer) := by
    funext answer
    cases answer with
    | none => rfl
    | some value => rfl
  rw [resolveAll_eq, resolver.lines_eq_answers, shown]
  simp only [List.filterMap_eq_map']

/-- The plain lines are the entries of the answers. -/
theorem resolveAll_plain (resolver : Resolver) (count : Nat) (texts : List String) :
    resolveAll resolver count false texts =
      (fun answers => (answers.map Resolver.entries).flatten) <$> resolver.answers count texts := by
  rw [resolveAll_eq, resolver.lines_eq_answers]
  simp only [List.filterMap_flatten]
  rfl

/-- The answers to all texts are as many as the texts times the count. -/
theorem length_flatten_answered {resolver : Resolver} {count : Nat} {texts : List String}
    {answers : List (List (Option Value))}
    (answered : List.Forall₂ (resolver.Answered count) texts answers) :
    answers.flatten.length = texts.length * count := by
  induction answered with
  | nil => simp
  | cons first _ ih =>
    rw [List.flatten_cons, List.length_append, first.length, ih, List.length_cons, Nat.succ_mul,
      Nat.add_comm]

/-- The JSON lines are one for each answer, and their output is framed by them. -/
theorem json_lines_frame (resolver : Resolver) (count : Nat) (texts : List String)
    (source : Source) :
    let answers := ((resolver.answers count texts).run source).1
    let lines := answers.flatten.map answerText
    ((resolveAll resolver count true texts).run source).1 = lines ∧
      lines.length = texts.length * count ∧ Frames (Outcome.success lines).output lines := by
  intro answers lines
  refine ⟨?_, ?_, frames_output fun line member => ?_⟩
  · rw [resolveAll_json]
    rfl
  · rw [List.length_map]
    exact length_flatten_answered (resolver.answers_answered count texts source)
  · obtain ⟨answer, _, rfl⟩ := List.mem_map.mp member
    exact lineFeed_not_mem_answerText answer

/--
JSON output is framed by lines, one for each answer, and plain output enters the present answers.

The answers to the texts stand in the order of the texts, as many for each as were asked for. They
are all absent for a text that asks for an unknown opcode, and all present for any other. A run that
succeeds with JSON prints the lines of the texts that it is directed by.
-/
theorem json_output_frames_answers (resolver : Resolver) (count : Nat) (texts : List String)
    (source : Source) :
    let answers := ((resolver.answers count texts).run source).1
    let lines := answers.flatten.map answerText
    List.Forall₂ (resolver.Answered count) texts answers ∧
      (((resolveAll resolver count true texts).run source).1 = lines ∧
        lines.length = texts.length * count ∧ Frames (Outcome.success lines).output lines) ∧
      (((resolveAll resolver count false texts).run source).1 =
          (answers.map Resolver.entries).flatten ∧
        List.Forall₂ (resolver.Entered count) texts (answers.map Resolver.entries)) ∧
      ∀ (surroundings : Surroundings) (words : List String) (request : Request),
        Request.ofWords surroundings.path words = .ok request → request.settings.json = true →
        ((run surroundings words).run source).1.status = 0 →
        ∃ table directives, request.settings.Provides surroundings.file table ∧
          request.Directs surroundings.input directives ∧
          let answers := (((surroundings.resolver table).answers request.settings.count
            directives).run source).1
          let lines := answers.flatten.map answerText
          lines.length = directives.length * request.settings.count ∧
            Frames ((run surroundings words).run source).1.output lines := by
  have answered := resolver.answers_answered count texts source
  refine ⟨answered, json_lines_frame resolver count texts source, ⟨?_, ?_⟩, ?_⟩
  · rw [resolveAll_plain]
    rfl
  · exact List.forall₂_map_right_iff.mpr (answered.imp fun _ _ => Resolver.Answered.entered)
  · intro surroundings words request accepted json succeeded
    rw [run_accepted accepted] at succeeded ⊢
    -- Of the three ends that a run can come to, only the last one has the status of success.
    rcases run_cases request surroundings with ⟨cause, ended, -⟩ | ⟨cause, ended, -⟩ |
      ⟨table, directives, provided, directed, -, ended⟩
    · rw [ended] at succeeded
      cases succeeded
    · rw [ended] at succeeded
      cases succeeded
    · have frame := json_lines_frame (surroundings.resolver table) request.settings.count
        directives source
      rw [json] at ended
      refine ⟨table, directives, provided, directed, frame.2.1, ?_⟩
      rw [ended, Draw.run_map, frame.1]
      exact frame.2.2

/-- A text with a line feed is printed on one line, and an unknown opcode on another. -/
theorem broken_text_stays_on_its_line :
    let surroundings : Surroundings := { file := fun _ => .error .notFound, clock := { now := 0 } }
    let outcome := ((run surroundings ["--json", "a\nb", "@nope()"]).run (.ofTape #[] 0)).1
    outcome.status = 0 ∧ ∃ lines, lines.length = 2 ∧ Frames outcome.output lines := by
  intro surroundings outcome
  have succeeded : outcome.status = 0 := rfl
  obtain ⟨table, directives, -, directed, length, frames⟩ :=
    (json_output_frames_answers { clock := { now := 0 } } 0 [] (.ofTape #[] 0)).2.2.2 surroundings
      ["--json", "a\nb", "@nope()"]
      { settings := { json := true }, directives := ["a\nb", "@nope()"] } rfl rfl succeeded
  refine ⟨succeeded, _, ?_, frames⟩
  cases directed with
  | given => exact length
  | read none => cases none

end Command

end Placeholder

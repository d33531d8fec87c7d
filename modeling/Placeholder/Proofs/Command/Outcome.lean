import Placeholder.Proofs.Command.Steps

/-! A run prints all its lines or nothing, and what decides is known before the first draw. -/

namespace Placeholder.Command

/-- The content of a file of further generators that is of no use. -/
inductive Unusable (content : Except FileError ByteArray) : Prop where
  /-- The file cannot be read, or is no text in UTF-8. -/
  | unread (missing : ∀ text : String, content ≠ .ok text.toByteArray)
  /-- The text in the file is no schema. -/
  | malformed (text : String) (read : content = .ok text.toByteArray)
    (broken : Schema.ofText? text = none)
  /-- The schema declares generators that cannot be registered. -/
  | rejected (text : String) (read : content = .ok text.toByteArray) (schema : Schema)
    (parsed : Schema.ofText? text = some schema) (cause : RegistryError)
    (refused : Table.ofSchema schema = .error cause)

/-- A file of further generators is asked for that is of no use. -/
def Settings.Misconfigured (settings : Settings) (file : String → Except FileError ByteArray) :
    Prop :=
  ∃ path, settings.config = some path ∧ Unusable (file path)

/-- The further generators that are asked for, of which there are none without a file. -/
inductive Settings.Provides (settings : Settings) (file : String → Except FileError ByteArray) :
    Table → Prop where
  | bare (unset : settings.config = none) : Provides settings file {}
  | declared {path text : String} {schema : Schema} {table : Table}
    (set : settings.config = some path) (read : file path = .ok text.toByteArray)
    (parsed : Schema.ofText? text = some schema) (registered : Table.ofSchema schema = .ok table) :
    Provides settings file table

/-- The directives of the command line, or else the lines of an input that is a text. -/
inductive Request.Directs (request : Request) (input : ByteArray) : List String → Prop where
  | given (some : request.directives ≠ []) : Directs request input request.directives
  | read {text : String} (none : request.directives = []) (whole : input = text.toByteArray) :
    Directs request input ((Text.lines text.toList).map String.ofList)

/-- Failures of the configuration. -/
inductive Failure.OfConfig : Failure → Prop where
  | unreadable (path : String) (cause : SchemaError) : OfConfig (.unreadableConfig path cause)
  | invalid (path : String) (cause : RegistryError) : OfConfig (.invalidConfig path cause)

/-- Generators that are provided leave nothing to complain about. -/
theorem Settings.Provides.not_misconfigured {settings : Settings}
    {file : String → Except FileError ByteArray} {table : Table}
    (provided : settings.Provides file table) : ¬ settings.Misconfigured file := by
  rintro ⟨path, set, unusable⟩
  cases provided with
  | bare unset =>
    rw [unset] at set
    cases set
  | @declared otherPath text schema table otherSet read parsed registered =>
    -- Each way of being of no use gets stuck at a step that has succeeded.
    cases set.symm.trans otherSet
    cases unusable with
    | unread missing => exact missing text read
    | malformed other otherRead broken =>
      cases String.toByteArray_inj.mp (Except.ok.inj (read.symm.trans otherRead))
      cases parsed.symm.trans broken
    | rejected other otherRead otherSchema otherParsed cause refused =>
      cases String.toByteArray_inj.mp (Except.ok.inj (read.symm.trans otherRead))
      cases parsed.symm.trans otherParsed
      cases registered.symm.trans refused

/-- The text of a file that can be read. -/
theorem content_of_bind {content : Except FileError ByteArray} {text : String}
    (read : content.bind textOf = .ok text) : content = .ok text.toByteArray := by
  cases content with
  | error cause => cases read
  | ok bytes => exact congrArg Except.ok (textOf_eq_ok_iff.mp read)

/-- Either the further generators are provided, or a failure of the configuration tells why not. -/
theorem table_cases (settings : Settings) (file : String → Except FileError ByteArray) :
    (∃ table, settings.table file = .ok table ∧ settings.Provides file table) ∨
      ∃ cause, settings.table file = .error cause ∧ cause.OfConfig ∧
        settings.Misconfigured file := by
  unfold Settings.table
  -- The cases follow the file from being read over being parsed to being registered.
  cases set : settings.config with
  | none => exact Or.inl ⟨{}, rfl, .bare set⟩
  | some path =>
    dsimp only
    unfold Schema.ofFile
    cases read : (file path).bind textOf with
    | error cause =>
      refine Or.inr ⟨_, rfl, .unreadable path _, path, set, .unread ?_⟩
      intro text same
      rw [same, Except.bind, textOf_eq_ok_iff.mpr rfl] at read
      cases read
    | ok text =>
      have content := content_of_bind read
      dsimp only
      cases parsed : Schema.ofText? text with
      | none =>
        exact Or.inr ⟨_, rfl, .unreadable path _, path, set, .malformed text content parsed⟩
      | some schema =>
        dsimp only
        cases registered : Table.ofSchema schema with
        | error cause =>
          exact Or.inr ⟨_, rfl, .invalid path _, path, set,
            .rejected text content schema parsed cause registered⟩
        | ok table => exact Or.inl ⟨table, rfl, .declared set content parsed registered⟩

/-- Either there are directives, or the input would have to be a text and is none. -/
theorem texts_cases (request : Request) (input : ByteArray) :
    (∃ texts, request.texts input = .ok texts ∧ request.Directs input texts ∧
        (request.directives = [] → input.IsValidUTF8)) ∨
      ∃ cause, request.texts input = .error (.unreadableInput cause) ∧ request.directives = [] ∧
        ¬ input.IsValidUTF8 := by
  unfold Request.texts
  cases given : request.directives with
  | cons text others =>
    have some : request.directives ≠ [] := by simp [given]
    -- Nothing is asked of an input that is not read.
    refine Or.inl ⟨_, rfl, given ▸ .given some, ?_⟩
    intro none
    cases none
  | nil =>
    cases read : textOf input with
    | ok text =>
      have whole := textOf_eq_ok_iff.mp read
      exact Or.inl ⟨_, rfl, .read given whole, fun _ => whole ▸ text.isValidUTF8⟩
    | error cause =>
      refine Or.inr ⟨_, rfl, rfl, ?_⟩
      intro valid
      have found : textOf input = .ok (String.fromUTF8 input valid) := textOf_eq_ok_iff.mpr rfl
      rw [found] at read
      cases read

/-- The resolver that looks for further generators in a table. -/
def Surroundings.resolver (surroundings : Surroundings) (table : Table) : Resolver where
  clock := surroundings.clock
  fallback := .table table

/-- A request fails for its configuration, or else for its input, or it shows all the lines. -/
theorem run_cases (request : Request) (surroundings : Surroundings) :
    (∃ cause, request.run surroundings = pure (.failure cause) ∧ cause.OfConfig ∧
        request.settings.Misconfigured surroundings.file) ∨
      (∃ cause, request.run surroundings = pure (.failure (.unreadableInput cause)) ∧
        ¬ request.settings.Misconfigured surroundings.file ∧
        request.directives = [] ∧ ¬ surroundings.input.IsValidUTF8) ∨
      ∃ table texts, request.settings.Provides surroundings.file table ∧
        request.Directs surroundings.input texts ∧
        (request.directives = [] → surroundings.input.IsValidUTF8) ∧
        request.run surroundings = Outcome.success <$>
          resolveAll (surroundings.resolver table) request.settings.count request.settings.json
            texts := by
  -- The file is read before the input is.
  unfold Request.run
  rcases table_cases request.settings surroundings.file with
    ⟨table, found, provided⟩ | ⟨cause, failed, ofConfig, misconfigured⟩
  · right
    rw [found]
    dsimp only
    rcases texts_cases request surroundings.input with
      ⟨texts, read, directed, valid⟩ | ⟨cause, failed, none, broken⟩
    · rw [read]
      exact Or.inr ⟨table, texts, provided, directed, valid, by rw [resolveAll_eq]; rfl⟩
    · rw [failed]
      exact Or.inl ⟨cause, rfl, provided.not_misconfigured, none, broken⟩
  · rw [failed]
    exact Or.inl ⟨cause, rfl, ofConfig, misconfigured⟩

/-- An accepted command line is carried out as its request. -/
theorem run_accepted {surroundings : Surroundings} {words : List String} {request : Request}
    (accepted : Request.ofWords surroundings.path words = .ok request) :
    run surroundings words = request.run surroundings := by
  rw [run, accepted]

/-- The input does not matter to directives of the command line, nor when the file is of no use. -/
theorem run_idle_input {request : Request} {surroundings : Surroundings}
    (idle : request.directives ≠ [] ∨ ¬ (request.settings.table surroundings.file).isOk)
    (input : ByteArray) :
    request.run { surroundings with input } = request.run surroundings := by
  unfold Request.run
  dsimp only
  cases found : request.settings.table surroundings.file with
  | error cause => rfl
  | ok table =>
    -- With a table only the directives can make the input irrelevant.
    rcases idle with given | failed
    · unfold Request.texts
      cases directives : request.directives with
      | nil => exact absurd directives given
      | cons text others => rfl
    · rw [found] at failed
      exact absurd rfl failed

/--
An accepted command line prints all its lines or fails without any.

The run comes to the end that its steps come to one by one. It fails with the status 1 exactly when
a file of generators is asked for that is of no use, which is the failure reported then, or else
when no directive is given and the input is no text. Otherwise it succeeds with the status 0, and
the output are the lines of all the directives. Given directives make the input irrelevant.
-/
theorem run_prints_all_or_fails {surroundings : Surroundings} {words : List String}
    {request : Request} (accepted : Request.ofWords surroundings.path words = .ok request)
    (source : Source) :
    let outcome := ((run surroundings words).run source).1
    request.carryOut surroundings source = (outcome.status, outcome.output) ∧
      (outcome.status = 1 ∧ outcome.output = "" ∨
        outcome.status = 0 ∧ ∃ table texts, request.settings.Provides surroundings.file table ∧
          request.Directs surroundings.input texts ∧
          outcome.output = String.join (((resolveAll (surroundings.resolver table)
            request.settings.count request.settings.json texts).run source).1.map (· ++ "\n"))) ∧
      (outcome.status = 1 ↔ request.settings.Misconfigured surroundings.file ∨
        request.directives = [] ∧ ¬ surroundings.input.IsValidUTF8) ∧
      (request.settings.Misconfigured surroundings.file →
        ∃ cause, outcome = .failure cause ∧ cause.OfConfig) ∧
      (request.directives ≠ [] →
        ∀ input, run { surroundings with input } words = run surroundings words) := by
  have started : ∀ input, run { surroundings with input } words =
      request.run { surroundings with input } := by
    intro input
    rw [run, accepted]
  dsimp only
  rw [started surroundings.input]
  refine ⟨carryOut_eq request surroundings source, ?_⟩
  have independent : request.directives ≠ [] →
      ∀ input, run { surroundings with input } words = request.run surroundings := by
    intro given input
    rw [started input, run_idle_input (Or.inl given)]
  -- Of the three ends that the run can come to each settles all that is said of it.
  rcases run_cases request surroundings with ⟨cause, ended, ofConfig, misconfigured⟩ |
    ⟨cause, ended, configured, none, broken⟩ | ⟨table, texts, provided, directed, valid, ended⟩
  · refine ⟨?_, ?_, ?_, independent⟩
    · rw [ended]
      exact Or.inl ⟨rfl, rfl⟩
    · rw [ended]
      exact ⟨fun _ => Or.inl misconfigured, fun _ => rfl⟩
    · intro _
      rw [ended]
      exact ⟨cause, rfl, ofConfig⟩
  · refine ⟨?_, ?_, ?_, independent⟩
    · rw [ended]
      exact Or.inl ⟨rfl, rfl⟩
    · rw [ended]
      exact ⟨fun _ => Or.inr ⟨none, broken⟩, fun _ => rfl⟩
    · exact fun misconfigured => absurd misconfigured configured
  · have configured := provided.not_misconfigured
    refine ⟨?_, ?_, ?_, independent⟩
    · rw [ended]
      exact Or.inr ⟨rfl, table, texts, provided, directed, rfl⟩
    · rw [ended]
      constructor
      · intro failed
        cases failed
      · rintro (misconfigured | ⟨none, broken⟩)
        · exact absurd misconfigured configured
        · exact absurd (valid none) broken
    · exact fun misconfigured => absurd misconfigured configured

/-- A last line that is no text keeps the line in front of it from being printed. -/
theorem broken_last_line_prints_nothing :
    let surroundings : Surroundings :=
      { file := fun _ => .error .notFound
        input := ⟨#[64, 105, 100, 10, 255]⟩
        clock := { now := 0 } }
    let outcome := ((run surroundings ["--count", "2"]).run (.ofTape #[] 0)).1
    outcome.status = 1 ∧ outcome.output = "" := by
  intro surroundings outcome
  obtain ⟨-, ends, failsIff, -, -⟩ := @run_prints_all_or_fails surroundings ["--count", "2"]
    { settings := { count := 2 } } rfl (.ofTape #[] 0)
  have failed := failsIff.mpr (Or.inr ⟨rfl, by decide⟩)
  rcases ends with ended | ⟨succeeded, -⟩
  · exact ended
  · exact absurd (failed.symm.trans succeeded) (by decide)

end Placeholder.Command

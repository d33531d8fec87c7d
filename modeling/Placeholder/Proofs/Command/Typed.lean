import Placeholder.Proofs.Command.Outcome

/-! Directives mean the same as words of the command line and as lines of the standard input. -/

namespace Placeholder.Command

/-- The two ways of ending a line. -/
inductive LineEnd : List Char → Prop where
  | feed : LineEnd ['\n']
  | returnAndFeed : LineEnd ['\r', '\n']

/-- Lines typed one after another, of which the last may be left open unless it is empty. -/
inductive Typed : List String → List Char → Prop where
  | nothing : Typed [] []
  | unended {line : String} (filled : line.toList ≠ []) : Typed [line] line.toList
  | ended {line : String} {lines : List String} {mark rest : List Char} (ends : LineEnd mark)
    (others : Typed lines rest) : Typed (line :: lines) (line.toList ++ (mark ++ rest))

/-- A directive that fits on a line, whose end cannot be taken for a part of the line's end. -/
structure Typeable (directive : String) : Prop where
  oneLine : '\n' ∉ directive.toList
  noReturn : directive.toList.getLast? ≠ some '\r'

/-- A line is what stands in front of its end. -/
theorem lines_mark {line : String} (typeable : Typeable line) {mark : List Char}
    (ends : LineEnd mark) (rest : List Char) :
    Text.lines (line.toList ++ (mark ++ rest)) = line.toList :: Text.lines rest := by
  cases ends with
  | feed =>
    show Text.lines (line.toList ++ '\n' :: rest) = _
    rw [lines_ended typeable.oneLine, unended, if_pos List.getLast?_concat,
      List.dropLast_concat, if_neg typeable.noReturn]
  | returnAndFeed =>
    -- The carriage return is seen as the last character of the line and dropped with the feed.
    have clean : '\n' ∉ line.toList ++ ['\r'] := by simp [typeable.oneLine]
    have whole := lines_ended clean rest
    rw [unended, if_pos List.getLast?_concat, List.dropLast_concat,
      if_pos List.getLast?_concat, List.dropLast_concat, List.append_assoc] at whole
    exact whole

/-- What was typed is read back line by line. -/
theorem lines_typed {directives : List String} {text : List Char}
    (typed : Typed directives text) (typeable : ∀ directive ∈ directives, Typeable directive) :
    (Text.lines text).map String.ofList = directives := by
  induction typed with
  | nothing => rfl
  | @unended line filled =>
    have fits := typeable line (List.mem_singleton_self line)
    -- Without a line feed at its end an open line keeps all its characters.
    have kept : unended line.toList = line.toList :=
      if_neg fun last => fits.oneLine (List.mem_of_getLast? last)
    rw [lines_open fits.oneLine filled, kept, List.map_singleton, String.ofList_toList]
  | ended ends _ ih =>
    obtain ⟨first, others⟩ := List.forall_mem_cons.mp typeable
    rw [lines_mark first ends, List.map_cons, ih others, String.ofList_toList]

/-- The directive that an argument gives, if it gives one. -/
def Argument.directive? : Argument → Option String
  | .directive text => some text
  | _ => none

/-- An argument that is added is not refused, and is kept if it is a directive. -/
theorem directives_of_add {draft next : Draft} {argument : Argument}
    (added : draft.add argument = .ok next) :
    (∀ cause, argument ≠ .refused cause) ∧
      next.directives = argument.directive?.toList ++ draft.directives := by
  -- Options change other fields, unless they are repeated or have no good value.
  unfold Draft.add at added
  split at added
  · cases added
  · split at added
    · cases added
    · cases added
      exact ⟨by simp, rfl⟩
  · split at added
    · split at added
      · cases added
      · cases added
        exact ⟨by simp, rfl⟩
    · cases added
  · split at added
    · cases added
    · cases added
      exact ⟨by simp, rfl⟩
  · cases added
    exact ⟨by simp, rfl⟩
  · cases added

/-- Arguments that are accepted are not refused, and their directives are kept in order. -/
theorem directives_of_accepted {arguments : List Argument} {draft final : Draft}
    (accepted : arguments.foldlM Draft.add draft = .ok final) :
    (∀ cause, .refused cause ∉ arguments) ∧
      final.directives = (arguments.filterMap Argument.directive?).reverse ++ draft.directives := by
  induction arguments generalizing draft with
  | nil =>
    cases accepted
    exact ⟨fun _ => List.not_mem_nil, rfl⟩
  | cons argument arguments ih =>
    rw [List.foldlM_cons] at accepted
    cases added : draft.add argument with
    | error cause =>
      rw [added] at accepted
      cases accepted
    | ok next =>
      rw [added] at accepted
      obtain ⟨noRefusal, step⟩ := directives_of_add added
      obtain ⟨noRefusals, kept⟩ := ih accepted
      refine ⟨fun cause => by simp [(noRefusal cause).symm, noRefusals cause], ?_⟩
      rw [kept, step]
      cases given : argument.directive? with
      | none => simp [given]
      | some text => simp [given]

/-- Directives are added to a draft and change nothing else in it. -/
theorem foldlM_directives (directives : List String) (draft : Draft) :
    (directives.map Argument.directive).foldlM Draft.add draft =
      .ok { draft with directives := directives.reverse ++ draft.directives } := by
  induction directives generalizing draft with
  | nil => rfl
  | cons text directives ih =>
    rw [List.map_cons, List.foldlM_cons]
    show (directives.map Argument.directive).foldlM Draft.add
      { draft with directives := text :: draft.directives } = _
    rw [ih, List.reverse_cons, List.append_assoc]
    rfl

/-- A word that is read among options gives an argument, waits, ends the options or ends it all. -/
theorem ofWordsAfter_cases (waiting : Option String) (word : String) :
    (word ≠ "--" ∧ ∃ argument, ∀ rest, Argument.ofWordsAfter waiting (word :: rest) =
        argument :: Argument.ofWordsAfter none rest) ∨
      (word ≠ "--" ∧ ∃ name, ∀ rest, Argument.ofWordsAfter waiting (word :: rest) =
        Argument.ofWordsAfter (some name) rest) ∨
      (∀ rest, Argument.ofWordsAfter waiting (word :: rest) = rest.map .directive) ∨
      ∃ cause, ∀ rest, Argument.ofWordsAfter waiting (word :: rest) = [.refused cause] := by
  cases waiting with
  | some name =>
    -- A value that is expected may not look like an option.
    by_cases plain : Argument.isPlain word = true
    · have other : word ≠ "--" := by
        rintro rfl
        exact absurd plain (by decide)
      exact Or.inl ⟨other, _, fun rest => by rw [Argument.ofWordsAfter, if_pos plain]⟩
    · exact Or.inr (Or.inr (Or.inr ⟨_, fun rest => by rw [Argument.ofWordsAfter, if_neg plain]⟩))
  | none =>
    by_cases ending : word = "--"
    · subst ending
      exact Or.inr (Or.inr (Or.inl fun rest => rfl))
    · have spelled : word.toList ≠ ['-', '-'] := fun same => ending (String.toList_inj.mp same)
      have opened (rest : List String) := Argument.ofWordsAfter.eq_def none (word :: rest)
      dsimp only at opened
      generalize word.toList = chars at spelled opened
      -- The first characters decide, and behind two hyphens the name of the option.
      split at opened
      · exact absurd rfl spelled
      · split at opened
        · exact Or.inl ⟨ending, _, opened⟩
        · split at opened
          · exact Or.inr (Or.inl ⟨ending, _, opened⟩)
          · exact Or.inl ⟨ending, _, opened⟩
      · exact Or.inl ⟨ending, _, opened⟩
      · exact Or.inl ⟨ending, _, opened⟩
      · exact Or.inl ⟨ending, _, opened⟩

/-- A plain word is a directive where no option waits for its value. -/
theorem ofWordsAfter_plain {word : String} (plain : Argument.isPlain word = true)
    (rest : List String) :
    Argument.ofWordsAfter none (word :: rest) =
      .directive word :: Argument.ofWordsAfter none rest := by
  have long : ∀ c tail, word.toList ≠ '-' :: c :: tail := by
    intro c tail form
    rw [Argument.isPlain, form] at plain
    cases plain
  rw [Argument.ofWordsAfter]
  split
  · exact absurd ‹_› (long _ _)
  · exact absurd ‹_› (long _ _)
  · exact absurd ‹_› (long _ _)
  · exact absurd ‹_› (long _ _)
  · rfl

/-- Plain words alone are directives. -/
theorem ofWordsAfter_allPlain {directives : List String}
    (plain : ∀ word ∈ directives, Argument.isPlain word = true) :
    Argument.ofWordsAfter none directives = directives.map Argument.directive := by
  induction directives with
  | nil => rfl
  | cons word directives ih =>
    obtain ⟨first, others⟩ := List.forall_mem_cons.mp plain
    rw [ofWordsAfter_plain first, ih others, List.map_cons]

/-- Words are directives behind options if they are plain or if the options have been ended. -/
theorem ofWordsAfter_append {options directives : List String} {waiting : Option String}
    (noRefusal : ∀ cause, .refused cause ∉ Argument.ofWordsAfter waiting options)
    (noDirective : (Argument.ofWordsAfter waiting options).filterMap Argument.directive? = [])
    (positional : (∀ word ∈ directives, Argument.isPlain word = true) ∨ "--" ∈ options) :
    Argument.ofWordsAfter waiting (options ++ directives) =
      Argument.ofWordsAfter waiting options ++ directives.map Argument.directive := by
  induction options generalizing waiting with
  | nil =>
    cases waiting with
    | some name => exact absurd (List.mem_singleton_self _) (noRefusal (.missingValue name))
    | none => exact ofWordsAfter_allPlain (positional.resolve_right List.not_mem_nil)
  | cons word options ih =>
    rw [List.cons_append]
    -- The end of the options is looked for behind every word but itself.
    have behind : word ≠ "--" →
        (∀ word ∈ directives, Argument.isPlain word = true) ∨ "--" ∈ options :=
      fun other => positional.imp_right fun member =>
        (List.mem_cons.mp member).resolve_left (Ne.symm other)
    rcases ofWordsAfter_cases waiting word with ⟨other, argument, given⟩ | ⟨other, name, waits⟩ |
      ended | ⟨cause, refused⟩
    · rw [given] at noRefusal noDirective
      rw [given, given, List.cons_append]
      congr 1
      refine ih (fun cause => (List.not_mem_of_not_mem_cons (noRefusal cause))) ?_ (behind other)
      rw [List.filterMap_eq_nil_iff] at noDirective ⊢
      exact fun argument member => noDirective argument (List.mem_cons_of_mem _ member)
    · rw [waits] at noRefusal noDirective
      rw [waits, waits]
      exact ih noRefusal noDirective (behind other)
    · rw [ended, ended, List.map_append]
    · rw [refused] at noRefusal
      exact absurd (List.mem_singleton_self _) (noRefusal cause)

/-- The directives of a draft are those of its request, which is the same with any others. -/
theorem finish_directives {draft : Draft} {path : Option String} {request : Request}
    (finished : draft.finish path = .ok request) (directives : List String) :
    request.directives = draft.directives.reverse ∧
      { draft with directives }.finish path =
        .ok { request with directives := directives.reverse } := by
  unfold Draft.finish at finished ⊢
  dsimp only
  -- Only the path decides whether a draft is refused.
  split at finished
  · cases finished
    exact ⟨rfl, rfl⟩
  · cases finished
  · cases finished
    exact ⟨rfl, rfl⟩

/-- A request without directives is made one with directives by words behind its options. -/
theorem ofWords_append {path : Option String} {options directives : List String}
    {settings : Settings} (bare : Request.ofWords path options = .ok { settings })
    (positional : (∀ word ∈ directives, Argument.isPlain word = true) ∨ "--" ∈ options) :
    Request.ofWords path (options ++ directives) = .ok { settings, directives } := by
  unfold Request.ofWords at bare ⊢
  cases accepted : (Argument.ofWords options).foldlM Draft.add {} with
  | error cause =>
    rw [accepted] at bare
    cases bare
  | ok draft =>
    rw [accepted] at bare
    obtain ⟨noRefusal, kept⟩ := directives_of_accepted accepted
    obtain ⟨none, others⟩ := finish_directives bare directives.reverse
    have unset : draft.directives = [] := List.reverse_eq_nil_iff.mp none.symm
    rw [unset, List.append_nil, eq_comm, List.reverse_eq_nil_iff] at kept
    have words : Argument.ofWords (options ++ directives) =
        Argument.ofWords options ++ directives.map Argument.directive :=
      ofWordsAfter_append noRefusal kept positional
    rw [words, List.foldlM_append, accepted]
    show ((directives.map Argument.directive).foldlM Draft.add draft >>= _) = _
    rw [foldlM_directives, unset, List.append_nil]
    rw [List.reverse_reverse] at others
    exact others

/-- A request for typed directives is carried out like one for the same directives. -/
theorem run_typed {settings : Settings} {directives : List String} {text : List Char}
    (some : directives ≠ []) (typed : Typed directives text)
    (typeable : ∀ directive ∈ directives, Typeable directive) (surroundings : Surroundings)
    (input : ByteArray) :
    Request.run { settings } { surroundings with input := (String.ofList text).toByteArray } =
      Request.run { settings, directives } { surroundings with input } := by
  have read : Request.texts { settings } (String.ofList text).toByteArray =
      Request.texts { settings, directives } input := by
    have whole : textOf (String.ofList text).toByteArray = .ok (String.ofList text) :=
      textOf_eq_ok_iff.mpr rfl
    obtain ⟨first, others, rfl⟩ := List.exists_cons_of_ne_nil some
    unfold Request.texts
    dsimp only
    rw [whole]
    dsimp only
    rw [String.toList_ofList, lines_typed typed typeable]
  unfold Request.run
  dsimp only
  rw [read]

/--
Directives are answered alike whether they are typed as lines or given as words.

Whatever the input is when they are given, both runs come to the same end and leave the same words
to be drawn. Plain directives can be given behind the options, and any directives behind `--`.
-/
theorem typed_directives_run_alike {surroundings : Surroundings} {options directives : List String}
    {settings : Settings} {text : List Char}
    (bare : Request.ofWords surroundings.path options = .ok { settings })
    (some : directives ≠ []) (typeable : ∀ directive ∈ directives, Typeable directive)
    (typed : Typed directives text) :
    (∀ words, Request.ofWords surroundings.path words = .ok { settings, directives } →
      ∀ input, run { surroundings with input := (String.ofList text).toByteArray } options =
        run { surroundings with input } words) ∧
      ((∀ word ∈ directives, Argument.isPlain word = true) ∨ "--" ∈ options →
        Request.ofWords surroundings.path (options ++ directives) =
          .ok { settings, directives }) := by
  refine ⟨fun words given input => ?_, ofWords_append bare⟩
  calc run { surroundings with input := (String.ofList text).toByteArray } options
      = Request.run { settings }
          { surroundings with input := (String.ofList text).toByteArray } := run_accepted bare
    _ = Request.run { settings, directives } { surroundings with input } :=
        run_typed some typed typeable surroundings input
    _ = run { surroundings with input } words :=
        (@run_accepted { surroundings with input } words _ given).symm

/-- An empty line and one with a carriage return inside, of which the last is left open. -/
theorem empty_and_open_line_run_alike :
    let surroundings : Surroundings := { file := fun _ => .error .notFound, clock := { now := 0 } }
    run { surroundings with input := "\r\na\rb".toByteArray } ["--json"] =
      run surroundings ["--json", "", "a\rb"] := by
  intro surroundings
  have typed : Typed ["", "a\rb"] ("".toList ++ (['\r', '\n'] ++ "a\rb".toList)) :=
    .ended .returnAndFeed (.unended (by decide))
  have typeable : ∀ directive ∈ ["", "a\rb"], Typeable directive := by
    rw [List.forall_mem_cons, List.forall_mem_singleton]
    exact ⟨⟨by decide, by decide⟩, ⟨by decide, by decide⟩⟩
  obtain ⟨alike, accepted⟩ := @typed_directives_run_alike surroundings ["--json"] ["", "a\rb"]
    { json := true } _ rfl (by decide) typeable typed
  exact alike ["--json", "", "a\rb"] (accepted (Or.inl (by decide))) .empty

end Placeholder.Command

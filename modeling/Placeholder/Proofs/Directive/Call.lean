import Placeholder.Directive
import Placeholder.Proofs.Text.Pieces
import Placeholder.Proofs.Text.Word

/-! The call that a text stands for is the leftmost one, closed by the last `)` of its line. -/

namespace Placeholder

/-- A text taken apart around a call `@opcode(blob)`. -/
structure CallSite where
  before : List Char
  opcode : List Char
  blob : List Char
  after : List Char

namespace CallSite

/-- What follows the at sign of a call. -/
def tail (site : CallSite) : List Char :=
  site.opcode ++ '(' :: (site.blob ++ ')' :: site.after)

/-- The text that was taken apart. -/
def text (site : CallSite) : List Char :=
  site.before ++ '@' :: site.tail

/-- A call is complete with a word for its opcode and both parentheses on one line. -/
structure Complete (site : CallSite) : Prop where
  word : Text.isWord site.opcode = true
  oneLine : '\n' ∉ site.blob

/-- A call is longest when every later `)` stands behind a line feed. -/
structure Longest (site : CallSite) : Prop extends site.Complete where
  last : ∀ between further, site.after = between ++ ')' :: further → '\n' ∈ between

/-- The chosen call is the longest at the leftmost at sign that has a complete one. -/
structure Chosen (site : CallSite) : Prop extends site.Longest where
  leftmost : ∀ other : CallSite, other.Complete → other.text = site.text →
    site.before.length ≤ other.before.length

/-- The directive of a call has an argument for each segment of the blob that is not empty. -/
structure Yields (site : CallSite) (directive : Directive) : Prop where
  opcode : directive.opcode = String.ofList site.opcode
  args : ∃ segments, Text.Segmented ',' site.blob segments ∧
    directive.args = (segments.filter (!·.isEmpty)).map fun segment =>
      Arg.classify (String.ofList segment)

/-- The same call with another text in front of it. -/
def behind (site : CallSite) (before : List Char) : CallSite :=
  { site with before := before }

@[simp] theorem before_behind (site : CallSite) (before : List Char) :
    (site.behind before).before = before :=
  rfl

@[simp] theorem text_behind (site : CallSite) (before : List Char) :
    (site.behind before).text = before ++ '@' :: site.tail :=
  rfl

/-- A call stays complete behind another text. -/
theorem Complete.behind {site : CallSite} (complete : site.Complete) (before : List Char) :
    (site.behind before).Complete :=
  ⟨complete.word, complete.oneLine⟩

/-- A call stays the longest behind another text. -/
theorem Longest.behind {site : CallSite} (longest : site.Longest) (before : List Char) :
    (site.behind before).Longest :=
  ⟨longest.toComplete.behind before, longest.last⟩

/-- A call yields the same directive behind another text. -/
theorem Yields.behind {site : CallSite} {directive : Directive} (yields : site.Yields directive)
    (before : List Char) : (site.behind before).Yields directive :=
  ⟨yields.opcode, yields.args⟩

/-- The first character of a text is the at sign of the call or stands in front of it. -/
theorem text_eq_cons_iff {site : CallSite} {c : Char} {rest : List Char} :
    site.text = c :: rest ↔
      (site.before = [] ∧ c = '@' ∧ site.tail = rest) ∨
        ∃ before, site.before = c :: before ∧ (site.behind before).text = rest := by
  -- What stands in front of the call is either nothing or starts the text.
  cases found : site.before with
  | nil => simp [text, found, eq_comm]
  | cons head before => simp [text, tail, behind, found, and_assoc]

end CallSite

/-- Somewhere in a text stands a complete call. -/
def HoldsCall (text : List Char) : Prop :=
  ∃ site : CallSite, site.Complete ∧ site.text = text

/-- The chosen call of a text has a given directive. -/
def FirstCall (text : List Char) (directive : Directive) : Prop :=
  ∃ site : CallSite, site.Chosen ∧ site.text = text ∧ site.Yields directive

namespace Directive

/-- A call yields the directive of its opcode and of the arguments in its blob. -/
theorem yields_iff {site : CallSite} {directive : Directive} :
    site.Yields directive ↔ ⟨String.ofList site.opcode, callArgs site.blob⟩ = directive := by
  constructor
  · intro yields
    obtain ⟨opcode, segments, segmented, args⟩ := yields
    -- The segments are the pieces that the arguments are made of.
    rw [callArgs, Text.pieces_eq_iff.mpr segmented, ← opcode, ← args]
  · intro same
    cases same
    -- The pieces are segments of the blob themselves.
    exact ⟨rfl, Text.pieces ',' site.blob, Text.pieces_eq_iff.mp rfl, rfl⟩

/-- No `)` is left on a line when each one further on stands behind a line feed. -/
theorem closed_iff {after : List Char} :
    ')' ∉ after.takeWhile (· != '\n') ↔
      ∀ between further, after = between ++ ')' :: further → '\n' ∈ between := by
  rw [Text.mem_takeWhile_iff]
  constructor
  · intro open_ between further split
    -- A closing parenthesis with no line feed in front of it would be on the line.
    apply Decidable.not_not.mp
    intro oneLine
    exact open_ ⟨by decide, between, further, split, Text.forall_bne_iff.mpr oneLine⟩
  · intro later closing
    obtain ⟨-, between, further, split, line⟩ := closing
    exact Text.forall_bne_iff.mp line (later between further split)

/-- After a word and an opening parenthesis, only the closing one is still to be found. -/
theorem callAfterAt?_word {opcode : List Char} (word : Text.isWord opcode = true)
    (rest : List Char) :
    callAfterAt? (opcode ++ '(' :: rest) =
      (Text.beforeLast ')' (rest.takeWhile (· != '\n'))).map fun blob =>
        ⟨String.ofList opcode, callArgs blob⟩ := by
  -- The parenthesis ends the run of word characters.
  have stop : ('(' :: rest).head?.any Text.isWordChar = false := rfl
  simp only [callAfterAt?, Text.takeWhile_word word stop, Text.dropWhile_word word stop]
  obtain ⟨c, others, rfl⟩ := List.exists_cons_of_ne_nil (Text.isWord_iff.mp word).1
  rfl

/-- A call after an at sign starts with a word and an opening parenthesis. -/
theorem opened_of_callAfterAt? {text : List Char} {directive : Directive}
    (called : callAfterAt? text = some directive) :
    ∃ opcode rest, Text.isWord opcode = true ∧ text = opcode ++ '(' :: rest := by
  simp only [callAfterAt?] at called
  split at called
  · -- The run of word characters and what stops it make up the text.
    rename_i c others rest run stop
    have nonempty : text.takeWhile Text.isWordChar ≠ [] := by simp [run]
    exact ⟨_, rest, Text.isWord_takeWhile nonempty,
      by rw [← stop, List.takeWhile_append_dropWhile]⟩
  · cases called

/-- The call after an at sign is the longest that starts there. -/
theorem callAfterAt?_eq_some_iff {text : List Char} {directive : Directive} :
    callAfterAt? text = some directive ↔
      ∃ site : CallSite, site.Longest ∧ site.tail = text ∧ site.Yields directive := by
  constructor
  · intro called
    obtain ⟨opcode, rest, word, rfl⟩ := opened_of_callAfterAt? called
    rw [callAfterAt?_word word, Option.map_eq_some_iff] at called
    obtain ⟨blob, closed, rfl⟩ := called
    -- The last parenthesis of the line leaves the blob in front and the rest of the text behind.
    obtain ⟨after, rfl, line, last⟩ :=
      (Text.beforeLast_takeWhile_eq_some_iff (by decide)).mp closed
    have oneLine := Text.forall_bne_iff.mp line
    exact ⟨⟨[], opcode, blob, after⟩, ⟨⟨word, oneLine⟩, closed_iff.mp last⟩, rfl,
      yields_iff.mpr rfl⟩
  · intro called
    obtain ⟨site, longest, rfl, yields⟩ := called
    -- No later parenthesis is on the line, so the search ends where the call does.
    have closed := (Text.beforeLast_takeWhile_eq_some_iff (by decide)).mpr
      ⟨site.after, rfl, Text.forall_bne_iff.mpr longest.oneLine, closed_iff.mpr longest.last⟩
    rw [CallSite.tail, callAfterAt?_word longest.word, closed, Option.map_some,
      yields_iff.mp yields]

/-- Some call starts after an at sign when a complete one does. -/
theorem callAfterAt?_isSome_iff {text : List Char} :
    (callAfterAt? text).isSome ↔ ∃ site : CallSite, site.Complete ∧ site.tail = text := by
  constructor
  · intro called
    obtain ⟨directive, called⟩ := Option.isSome_iff_exists.mp called
    obtain ⟨site, longest, whole, -⟩ := callAfterAt?_eq_some_iff.mp called
    exact ⟨site, longest.toComplete, whole⟩
  · intro called
    obtain ⟨site, complete, rfl⟩ := called
    -- The line of the opening parenthesis has at least the closing one of this call.
    have closing : ')' ∈ (site.blob ++ ')' :: site.after).takeWhile (· != '\n') :=
      Text.mem_takeWhile_iff.mpr
        ⟨by decide, site.blob, site.after, rfl, Text.forall_bne_iff.mpr complete.oneLine⟩
    rw [CallSite.tail, callAfterAt?_word complete.word, Option.isSome_map,
      Text.beforeLast_isSome_iff]
    exact closing

/-- A complete call stands at the first character of a text or behind it. -/
theorem holdsCall_cons_iff {c : Char} {rest : List Char} :
    HoldsCall (c :: rest) ↔
      (c = '@' ∧ ∃ site : CallSite, site.Complete ∧ site.tail = rest) ∨ HoldsCall rest := by
  constructor
  · intro holds
    obtain ⟨site, complete, whole⟩ := holds
    -- The at sign of the call is the first character, or the call is in the rest as it is.
    rcases CallSite.text_eq_cons_iff.mp whole with ⟨-, atSign, same⟩ | ⟨before, -, same⟩
    · exact Or.inl ⟨atSign, site, complete, same⟩
    · exact Or.inr ⟨site.behind before, complete.behind before, same⟩
  · intro holds
    rcases holds with ⟨rfl, site, complete, rfl⟩ | ⟨site, complete, rfl⟩
    · exact ⟨site.behind [], complete.behind [], rfl⟩
    · exact ⟨site.behind (c :: site.before), complete.behind _, rfl⟩

/-- A text has a first call when a complete call stands somewhere in it. -/
theorem firstCall?_isSome_iff {text : List Char} :
    (firstCall? text).isSome ↔ HoldsCall text := by
  -- The search tries a call at each at sign before it goes on behind it.
  induction text with
  | nil =>
    -- A call has at least its at sign.
    simp only [firstCall?, Option.isSome_none, Bool.false_eq_true, false_iff]
    intro holds
    obtain ⟨site, -, whole⟩ := holds
    simp [CallSite.text] at whole
  | cons c rest ih =>
    rw [firstCall?, holdsCall_cons_iff, ← callAfterAt?_isSome_iff, ← ih]
    by_cases atSign : c = '@'
    · simp [atSign]
    · simp [atSign]

/-- The first call of a text is at its first character if any complete call is. -/
theorem firstCall_cons_iff {c : Char} {rest : List Char} {directive : Directive} :
    FirstCall (c :: rest) directive ↔
      (c = '@' ∧ callAfterAt? rest = some directive) ∨
        (¬ (c = '@' ∧ (callAfterAt? rest).isSome) ∧ FirstCall rest directive) := by
  rw [callAfterAt?_eq_some_iff, callAfterAt?_isSome_iff]
  constructor
  · intro first
    obtain ⟨site, chosen, whole, yields⟩ := first
    rcases CallSite.text_eq_cons_iff.mp whole with ⟨-, atSign, same⟩ | ⟨before, found, same⟩
    · exact Or.inl ⟨atSign, site, chosen.toLongest, same, yields⟩
    · refine Or.inr ⟨?_, site.behind before, ⟨chosen.toLongest.behind before, ?_⟩, same,
        yields.behind before⟩
      · -- A complete call at the first character would be further to the left.
        intro here
        obtain ⟨rfl, other, complete, rfl⟩ := here
        have first := chosen.leftmost (other.behind []) (complete.behind []) whole.symm
        simp [found] at first
      · -- Any other call of the rest is one of the whole text as well, one place further on.
        intro other complete sameText
        have shifted := chosen.leftmost (other.behind (c :: other.before)) (complete.behind _)
          (by rw [whole, ← same, ← sameText]; rfl)
        simpa [found] using shifted
  · intro first
    rcases first with ⟨rfl, site, longest, rfl, yields⟩ | ⟨noneHere, site, chosen, rfl, yields⟩
    · refine ⟨site.behind [], ⟨longest.behind [], ?_⟩, rfl, yields.behind []⟩
      -- Nothing is further to the left than the first character.
      intro other _ _
      exact Nat.zero_le _
    · refine ⟨site.behind (c :: site.before), ⟨chosen.toLongest.behind _, ?_⟩, rfl,
        yields.behind _⟩
      intro other complete sameText
      -- Another call cannot start at the first character, so it is compared in the rest.
      rcases CallSite.text_eq_cons_iff.mp sameText with ⟨-, atSign, same⟩ | ⟨before, found, same⟩
      · exact absurd ⟨atSign, other, complete, same⟩ noneHere
      · have shifted := chosen.leftmost (other.behind before) (complete.behind before) same
        simpa [found] using shifted

/-- The search finds the first call and nothing else. -/
theorem firstCall?_eq_some_iff {text : List Char} {directive : Directive} :
    firstCall? text = some directive ↔ FirstCall text directive := by
  -- At each character the call that starts there goes before those behind it.
  induction text with
  | nil =>
    simp only [firstCall?, reduceCtorEq, false_iff]
    intro first
    obtain ⟨site, -, whole, -⟩ := first
    simp [CallSite.text] at whole
  | cons c rest ih =>
    rw [firstCall?, firstCall_cons_iff, ← ih]
    by_cases atSign : c = '@'
    · cases called : callAfterAt? rest with
      | none => simp [atSign]
      | some other => simp [atSign]
    · simp [atSign]

/-- A call is read from exactly the texts that hold a complete one. -/
theorem ofCall?_isSome_iff {text : String} :
    (ofCall? text).isSome ↔ HoldsCall text.toList :=
  firstCall?_isSome_iff

/-- The call that is read from a text is its first one. -/
theorem ofCall?_eq_some_iff {text : String} {directive : Directive} :
    ofCall? text = some directive ↔ FirstCall text.toList directive :=
  firstCall?_eq_some_iff

/-- A call is read when a complete one stands somewhere, and it is then the chosen one. -/
theorem ofCall?_reads_chosen_call (text : String) :
    ((ofCall? text).isSome ↔ HoldsCall text.toList) ∧
      ∀ directive, ofCall? text = some directive ↔ FirstCall text.toList directive :=
  ⟨ofCall?_isSome_iff, fun _ => ofCall?_eq_some_iff⟩

-- The first at sign has no word behind it, and the last parenthesis closes the call.
example : ofCall? "@( @pick(a) or (b)" = some ⟨"pick", [.text "a) or (b"]⟩ := by decide

end Directive

end Placeholder

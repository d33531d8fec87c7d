import Placeholder.Proofs.Calendar.Format

/-! A bracketed text parts a pattern in two, which are read and shown as if each stood alone. -/

namespace Placeholder

namespace Text

/-- An opening does not reach a character that it does not hold. -/
theorem afterOpening_append {opening : List Char} {stop : Char} (foreign : stop ∉ opening)
    (text rest : List Char) :
    afterOpening opening (text ++ stop :: rest) =
      (afterOpening opening text).map (· ++ stop :: rest) := by
  -- Opening and text are walked together, and the opening fails at the character at the latest.
  induction opening generalizing text with
  | nil => simp [afterOpening]
  | cons expected opening ih =>
    obtain ⟨differs, behind⟩ := List.ne_and_not_mem_of_not_mem_cons foreign
    cases text with
    | nil => simp [afterOpening, differs]
    | cons c text =>
      rw [List.cons_append, afterOpening, afterOpening]
      split
      · exact ih behind text
      · rfl

end Text

namespace Calendar.Pattern

/-- No token holds a bracket. -/
theorem tokens_bracketless : ∀ entry ∈ Field.table, '[' ∉ entry.2.1.toList := by
  decide

/-- A token in front of a bracket is the token that would be there without it. -/
theorem token?_append_bracket (text rest : List Char) :
    token? (text ++ '[' :: rest) =
      (token? text).map fun (field, after) => (field, after ++ '[' :: rest) := by
  unfold token?
  generalize listed : Field.table = entries
  have bracketless := tokens_bracketless
  rw [listed] at bracketless
  clear listed
  -- The entries are tried in turn, and each of them fits on both sides or on neither.
  induction entries with
  | nil => rfl
  | cons entry entries ih =>
    obtain ⟨first, others⟩ := List.forall_mem_cons.mp bracketless
    obtain ⟨field, token, specifier⟩ := entry
    simp only [List.findSome?_cons, Text.afterOpening_append first]
    cases Text.afterOpening token.toList text with
    | none => exact ih others
    | some after => rfl

/-- The places that the reading of a pattern comes by, in front of one segment after another. -/
inductive Passes (pattern : List Char) : List Char → Prop where
  | start : Passes pattern pattern
  | onward {c : Char} {rest : List Char} (here : Passes pattern (c :: rest)) :
    Passes pattern (firstSegment c rest).2

/-- Every bracket that the reading of a pattern comes by has a partner in the pattern. -/
def Paired (pattern : List Char) : Prop :=
  ∀ rest, Passes pattern ('[' :: rest) → ']' ∈ rest

/-- Nothing is passed in a pattern that is read already. -/
theorem passes_nil_iff {place : List Char} : Passes [] place ↔ place = [] := by
  constructor
  · intro passes
    induction passes with
    | start => rfl
    | onward _ ih => cases ih
  · rintro rfl
    exact .start

/-- A pattern is passed at its start and where the reading behind its first segment passes. -/
theorem passes_cons_iff {c : Char} {rest place : List Char} :
    Passes (c :: rest) place ↔ place = c :: rest ∨ Passes (firstSegment c rest).2 place := by
  constructor
  · intro passes
    induction passes with
    | start => exact Or.inl rfl
    | onward _ ih =>
      -- The second place is the start of the rest, and every later one is behind it.
      rcases ih with same | behind
      · cases same
        exact Or.inr .start
      · exact Or.inr (.onward behind)
  · rintro (rfl | behind)
    · exact .start
    · induction behind with
      | start => exact .onward .start
      | onward _ ih => exact .onward ih

/-- A pattern without characters has no bracket. -/
theorem paired_nil : Paired [] := by
  intro rest passes
  cases passes_nil_iff.mp passes

/-- A pattern is paired when its first bracket has a partner and what is read later is paired. -/
theorem paired_cons_iff {c : Char} {rest : List Char} :
    Paired (c :: rest) ↔ (c = '[' → ']' ∈ rest) ∧ Paired (firstSegment c rest).2 := by
  simp only [Paired, passes_cons_iff, List.cons.injEq]
  constructor
  · intro paired
    exact ⟨fun bracket => paired rest (Or.inl ⟨bracket.symm, rfl⟩),
      fun place passes => paired place (Or.inr passes)⟩
  · rintro ⟨first, behind⟩ place (⟨bracket, rfl⟩ | passes)
    · exact first bracket.symm
    · exact behind place passes

/-- Whether a pattern is paired is found out by reading it. -/
def decidePaired (pattern : List Char) : Decidable (Paired pattern) :=
  match pattern with
  | [] => isTrue paired_nil
  | c :: rest =>
    have := firstSegment_length c rest
    have := decidePaired (firstSegment c rest).2
    decidable_of_iff _ paired_cons_iff.symm
termination_by pattern.length
decreasing_by simp only [List.length_cons]; omega

instance : DecidablePred Paired :=
  decidePaired

/-- What stands in front of a bracket is read in the same way as without it. -/
theorem firstSegment_append_bracket {c : Char} {rest : List Char} (first : c = '[' → ']' ∈ rest)
    (tail : List Char) :
    firstSegment c (rest ++ '[' :: tail) =
      ((firstSegment c rest).1, (firstSegment c rest).2 ++ '[' :: tail) := by
  by_cases bracket : c = '['
  · -- The partner that is nearest is in front of the other bracket.
    subst bracket
    obtain ⟨⟨inside, after⟩, cut⟩ :=
      Option.isSome_iff_exists.mp (Text.cutFirst_isSome_iff.mpr (first rfl))
    obtain ⟨rfl, nearest⟩ := Text.cutFirst_eq_some_iff.mp cut
    rw [List.append_assoc, List.cons_append, firstSegment_bracket nearest,
      firstSegment_bracket nearest]
  · -- Without a bracket at its start a text is read by tokens and lone characters.
    have unbracketed : ∀ others, ¬ Bracketed (c :: others) := fun others bracketed =>
      bracket (bracketed_cons_iff.mp bracketed).1
    have token := token?_append_bracket (c :: rest) tail
    rw [List.cons_append] at token
    rw [firstSegment_unbracketed (unbracketed _), firstSegment_unbracketed (unbracketed _), token]
    cases token? (c :: rest) with
    | none => rfl
    | some found => rfl

/-- A paired pattern in front of a bracket is read as if it stood alone. -/
theorem segments_append_bracket {pattern : List Char} (paired : Paired pattern)
    (tail : List Char) :
    segments (pattern ++ '[' :: tail) = segments pattern ++ segments ('[' :: tail) := by
  -- The induction follows the reading, which keeps what is left of the pattern paired.
  induction pattern using segments.induct with
  | case1 => simp [segments]
  | case2 c rest _ ih =>
    obtain ⟨first, behind⟩ := paired_cons_iff.mp paired
    rw [List.cons_append, segments, firstSegment_append_bracket first, ih behind,
      segments.eq_def (c :: rest), List.cons_append]

/-- A bracketed text is one segment, and both sides of it are read on their own. -/
theorem segments_around_bracket {before inside : List Char} (paired : Paired before)
    (closed : ']' ∉ inside) (after : List Char) :
    segments (before ++ '[' :: (inside ++ ']' :: after)) =
      segments before ++ .literal inside :: segments after := by
  rw [segments_append_bracket paired, segments.eq_def ('[' :: _)]
  dsimp only
  rw [firstSegment_bracket closed]

/--
A bracketed text parts a pattern in two.

In front of it every bracket that the reading comes by has its own partner, and the text holds no
closing bracket. Then the `%` format is that of the part in front, the text with its percent signs
doubled and the format of the part behind, and at every instant the two parts are shown on their
own around the text.
-/
theorem bracketed_text_parts_pattern {before inside : String} (paired : Paired before.toList)
    (closed : ']' ∉ inside.toList) (after : String) :
    toStrftime (before ++ "[" ++ inside ++ "]" ++ after) =
        toStrftime before ++ String.ofList (doubled inside.toList) ++ toStrftime after ∧
      ∀ (instant : Instant) (offset : Int),
        format (before ++ "[" ++ inside ++ "]" ++ after) (instant.at offset) =
          format before (instant.at offset) ++ inside ++ format after (instant.at offset) := by
  -- Formats and shown texts are put together from segments, which are parted already.
  have parts := segments_around_bracket paired closed after.toList
  constructor
  · simp [toStrftime, parts, Segment.toStrftime, String.append_assoc]
  · -- What is shown of a literal is the literal itself, in which nothing is doubled.
    intro instant offset
    simp [format_eq_segments, parts, Segment.text, String.append_assoc]

/-- Brackets in brackets, percent signs and a closing bracket behind are kept apart. -/
theorem bracketed_percent_kept_apart :
    Paired "[[]D".toList ∧ ']' ∉ "5% [D".toList ∧
      toStrftime ("[[]D" ++ "[" ++ "5% [D" ++ "]" ++ "]M") =
        toStrftime "[[]D" ++ String.ofList (doubled "5% [D".toList) ++ toStrftime "]M" ∧
      ∀ (instant : Instant) (offset : Int),
        format ("[[]D" ++ "[" ++ "5% [D" ++ "]" ++ "]M") (instant.at offset) =
          format "[[]D" (instant.at offset) ++ "5% [D" ++ format "]M" (instant.at offset) := by
  have paired : Paired "[[]D".toList := by decide +kernel
  have closed : ']' ∉ "5% [D".toList := by decide
  exact ⟨paired, closed, bracketed_text_parts_pattern paired closed "]M"⟩

/-- A bracket that is left open takes the text behind it. -/
example : ¬ Paired "[D".toList ∧ toStrftime ("[D" ++ "[" ++ "x" ++ "]" ++ "") = "D[x" := by
  decide +kernel

end Calendar.Pattern

end Placeholder

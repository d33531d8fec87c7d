import Placeholder.Text.Pieces

/-! Texts are cut in one way only: the separators that were left out tell where the parts meet. -/

namespace Placeholder.Text

/-- Segments without separators that give a text when a separator is put between each two. -/
structure Segmented (separator : Char) (text : List Char) (segments : List (List Char)) :
    Prop where
  -- Even the empty text has a segment, which is empty as well.
  nonempty : segments ≠ []
  clean : ∀ segment ∈ segments, separator ∉ segment
  joined : [separator].intercalate segments = text

/-- Pieces are what the library's split at a separator gives. -/
theorem pieces_eq_splitOn (separator : Char) (text : List Char) :
    pieces separator text = text.splitOn separator := by
  -- Both either open a new piece or put the character in front of the first one.
  induction text with
  | nil => rfl
  | cons c rest ih =>
    rw [pieces, List.splitOn_cons_eq_if_modifyHead, ih]
    by_cases same : c = separator
    · simp [same]
    · obtain ⟨piece, others, split⟩ := List.exists_cons_of_ne_nil
        (List.splitOn_ne_nil separator rest)
      simp [same, split]

/-- A piece keeps characters of the text and none of the separators. -/
theorem mem_of_mem_piece {separator : Char} {text piece : List Char}
    (member : piece ∈ pieces separator text) {c : Char} (within : c ∈ piece) :
    c ∈ text ∧ c ≠ separator := by
  -- A character that is put in front of a piece differs from the separator it was compared with.
  induction text generalizing piece with
  | nil =>
    simp only [pieces, List.mem_singleton] at member
    simp [member] at within
  | cons head rest ih =>
    rw [pieces] at member
    split at member
    · rcases List.mem_cons.mp member with rfl | member
      · simp at within
      · exact ⟨List.mem_cons_of_mem _ (ih member within).1, (ih member within).2⟩
    · rename_i different
      split at member
      · rename_i none
        simp [pieces_eq_splitOn] at none
      · rename_i first others split
        rcases List.mem_cons.mp member with rfl | member
        · rcases List.mem_cons.mp within with rfl | within
          · exact ⟨List.mem_cons_self, different⟩
          · have opening : first ∈ pieces separator rest := by simp [split]
            exact ⟨List.mem_cons_of_mem _ (ih opening within).1, (ih opening within).2⟩
        · have later : piece ∈ pieces separator rest := by simp [split, member]
          exact ⟨List.mem_cons_of_mem _ (ih later within).1, (ih later within).2⟩

/-- The pieces of a text are its only segments. -/
theorem pieces_eq_iff {separator : Char} {text : List Char} {segments : List (List Char)} :
    pieces separator text = segments ↔ Segmented separator text segments := by
  constructor
  · intro same
    subst same
    exact {
      nonempty := by simp [pieces_eq_splitOn]
      clean := fun piece member within => (mem_of_mem_piece member within).2 rfl
      joined := by simp [pieces_eq_splitOn] }
  · -- Splitting what was joined gives the segments back, since none of them holds a separator.
    intro segmented
    rw [pieces_eq_splitOn, ← segmented.joined]
    exact List.splitOn_intercalate separator segmented.clean segmented.nonempty

/-- Joined segments are told apart again by a test that drops none of them but the empty one. -/
theorem filter_pieces_intercalate {separator : Char} {keep : List Char → Bool}
    (dropped : keep [] = false) {segments : List (List Char)}
    (clean : ∀ segment ∈ segments, keep segment = true ∧ separator ∉ segment) :
    (pieces separator ([separator].intercalate segments)).filter keep = segments := by
  cases segments with
  | nil =>
    -- Nothing was joined, and the empty text still has one piece.
    simp [pieces, dropped]
  | cons first others =>
    have segmented : Segmented separator _ (first :: others) := {
      nonempty := by simp
      clean := fun segment member => (clean segment member).2
      joined := rfl }
    rw [pieces_eq_iff.mpr segmented, List.filter_eq_self]
    intro segment member
    exact (clean segment member).1

/-- Joined segments hold no character but their own ones and the separator. -/
theorem not_mem_intercalate {separator avoided : Char} (differ : avoided ≠ separator)
    {segments : List (List Char)} (clean : ∀ segment ∈ segments, avoided ∉ segment) :
    avoided ∉ [separator].intercalate segments := by
  -- Each segment but the last is followed by one separator.
  induction segments with
  | nil => simp
  | cons first others ih =>
    have here : avoided ∉ first := clean first (by simp)
    have further := ih fun segment member => clean segment (by simp [member])
    cases others with
    | nil => simpa using here
    | cons second others => simp [List.intercalate_cons_cons, here, differ, further]

/-- A text is cut at a separator that no other one stands in front of. -/
theorem cutFirst_append {separator : Char} {before : List Char} (clean : separator ∉ before)
    (after : List Char) :
    cutFirst separator (before ++ separator :: after) = some (before, after) := by
  -- The walk passes each character in front of the separator and stops there.
  induction before with
  | nil => simp [cutFirst]
  | cons c before ih =>
    simp only [List.mem_cons, not_or] at clean
    simp [cutFirst, Ne.symm clean.1, ih clean.2]

/-- Cutting at the first separator leaves no separator in front of it. -/
theorem cutFirst_eq_some_iff {separator : Char} {text before after : List Char} :
    cutFirst separator text = some (before, after) ↔
      text = before ++ separator :: after ∧ separator ∉ before := by
  constructor
  · intro cut
    -- Each character in front of the cut was compared with the separator and differed.
    induction text generalizing before with
    | nil => simp [cutFirst] at cut
    | cons c rest ih =>
      rw [cutFirst] at cut
      split at cut
      · rename_i same
        cases cut
        simp [same]
      · rename_i different
        obtain ⟨⟨inner, outer⟩, found, same⟩ := Option.map_eq_some_iff.mp cut
        cases same
        obtain ⟨whole, clean⟩ := ih found
        exact ⟨by rw [whole, List.cons_append], by simp [clean, Ne.symm different]⟩
  · intro cut
    obtain ⟨rfl, clean⟩ := cut
    exact cutFirst_append clean after

/-- A text is cut unless it holds no separator. -/
theorem cutFirst_isSome_iff {separator : Char} {text : List Char} :
    (cutFirst separator text).isSome ↔ separator ∈ text := by
  -- The walk either stops at its first character or goes on behind it.
  induction text with
  | nil => simp [cutFirst]
  | cons c rest ih =>
    rw [cutFirst]
    split
    · rename_i same
      simp [same]
    · rename_i different
      simp [ih, Ne.symm different]

/-- A text that has an opening is the opening with what follows it. -/
theorem afterOpening_eq_some_iff {opening text rest : List Char} :
    afterOpening opening text = some rest ↔ text = opening ++ rest := by
  -- Opening and text are walked together, one character after another.
  induction opening generalizing text with
  | nil => simp [afterOpening]
  | cons expected opening ih =>
    cases text with
    | nil => simp [afterOpening]
    | cons c text =>
      rw [afterOpening]
      by_cases same : c = expected
      · simp [same, ih]
      · simp [same]

/-- A text has a last separator unless it has none. -/
theorem beforeLast_isSome_iff {separator : Char} {text : List Char} :
    (beforeLast separator text).isSome ↔ separator ∈ text := by
  -- The first character counts only when the rest holds no separator.
  induction text with
  | nil => simp [beforeLast]
  | cons c rest ih =>
    rw [beforeLast]
    cases found : beforeLast separator rest with
    | some before =>
      have within : separator ∈ rest := by simpa [found] using ih
      simp [within]
    | none =>
      have clean : separator ∉ rest := by simpa [found] using ih
      by_cases same : c = separator
      · simp [same]
      · simp [same, Ne.symm same, clean]

/-- The last separator is the one that no other follows. -/
theorem beforeLast_eq_some_iff {separator : Char} {text before : List Char} :
    beforeLast separator text = some before ↔
      ∃ after, text = before ++ separator :: after ∧ separator ∉ after := by
  -- A separator in the rest of the text is later than one at its start.
  induction text generalizing before with
  | nil => simp [beforeLast]
  | cons c rest ih =>
    rw [beforeLast]
    cases found : beforeLast separator rest with
    | some inner =>
      obtain ⟨after, whole, clean⟩ := ih.mp found
      constructor
      · intro same
        cases same
        exact ⟨after, by rw [whole, List.cons_append], clean⟩
      · intro cut
        obtain ⟨other, same, otherClean⟩ := cut
        cases before with
        | nil =>
          simp only [List.nil_append, List.cons.injEq] at same
          simp [← same.2, whole] at otherClean
        | cons head before =>
          simp only [List.cons_append, List.cons.injEq] at same
          have again := ih.mpr ⟨other, same.2, otherClean⟩
          rw [found] at again
          cases again
          rw [same.1]
    | none =>
      have clean : separator ∉ rest := by
        simpa [found] using @beforeLast_isSome_iff separator rest
      constructor
      · intro cut
        by_cases same : c = separator
        · simp only [same, if_true, Option.some.injEq] at cut
          exact ⟨rest, by simp [same, ← cut], clean⟩
        · simp [same] at cut
      · intro cut
        obtain ⟨after, same, -⟩ := cut
        cases before with
        | nil =>
          simp only [List.nil_append, List.cons.injEq] at same
          simp [same.1]
        | cons head before =>
          simp only [List.cons_append, List.cons.injEq] at same
          simp [same.2] at clean

/-- A text avoids a character when each of its own characters differs from it. -/
theorem forall_bne_iff {text : List Char} {avoided : Char} :
    (∀ c ∈ text, (c != avoided) = true) ↔ avoided ∉ text := by
  simp only [bne_iff_ne]
  exact ⟨fun differ member => differ avoided member rfl,
    fun missing c member same => missing (same ▸ member)⟩

/-- A character is in the run at the start of a text when all in front of it belong there too. -/
theorem mem_takeWhile_iff {p : Char → Bool} {text : List Char} {c : Char} :
    c ∈ text.takeWhile p ↔
      p c = true ∧ ∃ before after, text = before ++ c :: after ∧ ∀ d ∈ before, p d = true := by
  constructor
  · intro member
    have run := List.all_eq_true.mp (List.all_takeWhile (p := p) (l := text))
    obtain ⟨before, line, split⟩ := List.append_of_mem member
    refine ⟨run c member, before, line ++ text.dropWhile p, ?_, ?_⟩
    · calc text = text.takeWhile p ++ text.dropWhile p := List.takeWhile_append_dropWhile.symm
        _ = (before ++ c :: line) ++ text.dropWhile p := by rw [← split]
        _ = before ++ c :: (line ++ text.dropWhile p) := by simp
    · intro d within
      exact run d (by simp [split, within])
  · intro reached
    obtain ⟨holds, before, after, rfl, run⟩ := reached
    rw [List.takeWhile_append_of_pos run, List.takeWhile_cons_of_pos holds]
    simp

/-- The last separator inside the run at the start of a text is followed by none in that run. -/
theorem beforeLast_takeWhile_eq_some_iff {p : Char → Bool} {separator : Char}
    (belongs : p separator = true) {text before : List Char} :
    beforeLast separator (text.takeWhile p) = some before ↔
      ∃ after, text = before ++ separator :: after ∧ (∀ c ∈ before, p c = true) ∧
        separator ∉ after.takeWhile p := by
  -- A run goes on behind a separator that belongs to it.
  have run_append : ∀ after, (∀ c ∈ before, p c = true) →
      (before ++ separator :: after).takeWhile p = before ++ separator :: after.takeWhile p := by
    intro after run
    rw [List.takeWhile_append_of_pos run, List.takeWhile_cons_of_pos belongs]
  rw [beforeLast_eq_some_iff]
  constructor
  · intro cut
    obtain ⟨line, split, last⟩ := cut
    have run : ∀ c ∈ before, p c = true := fun c member =>
      List.all_eq_true.mp (List.all_takeWhile (l := text)) c (by simp [split, member])
    have whole : text = before ++ separator :: (line ++ text.dropWhile p) := by
      calc text = text.takeWhile p ++ text.dropWhile p := List.takeWhile_append_dropWhile.symm
        _ = (before ++ separator :: line) ++ text.dropWhile p := by rw [← split]
        _ = before ++ separator :: (line ++ text.dropWhile p) := by simp
    have same := run_append (line ++ text.dropWhile p) run
    rw [← whole, split, List.append_cancel_left_eq, List.cons.injEq] at same
    exact ⟨line ++ text.dropWhile p, whole, run, same.2 ▸ last⟩
  · intro cut
    obtain ⟨after, rfl, run, last⟩ := cut
    exact ⟨after.takeWhile p, run_append after run, last⟩

end Placeholder.Text

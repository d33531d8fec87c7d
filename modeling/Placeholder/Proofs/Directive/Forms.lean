import Placeholder.Proofs.Directive.Call
import Placeholder.Proofs.Directive.OptionForm
import Placeholder.Proofs.Text.Digits

/-! Segments are written between parentheses or behind a bar, and are read again from either. -/

namespace Placeholder.Directive

/-- The call with given segments between its parentheses. -/
def callText (opcode : String) (segments : List String) : String :=
  "@" ++ opcode ++ "(" ++ ",".intercalate segments ++ ")"

/-- The option form with given segments behind its bar. -/
def optionText (opcode : String) (segments : List String) : String :=
  "@" ++ opcode ++ "|" ++ "&".intercalate segments

/-- Segments between commas are classified one by one when none of them is empty. -/
theorem callArgs_intercalate {segments : List (List Char)}
    (clean : ∀ segment ∈ segments, segment ≠ [] ∧ ',' ∉ segment) :
    callArgs ([','].intercalate segments) =
      segments.map fun segment => Arg.classify (String.ofList segment) := by
  -- Only empty segments are dropped.
  rw [callArgs, Text.filter_pieces_intercalate rfl]
  intro segment member
  simpa using clean segment member

/-- Segments between ampersands are kept as texts when all of them hold an equals sign. -/
theorem optionArgs_intercalate {segments : List (List Char)}
    (clean : ∀ segment ∈ segments, '=' ∈ segment ∧ '&' ∉ segment) :
    optionArgs (['&'].intercalate segments) =
      segments.map fun segment => .text (String.ofList segment) := by
  -- Only segments without an equals sign are dropped, the empty one among them.
  rw [optionArgs, Text.filter_pieces_intercalate rfl]
  intro segment member
  simpa using clean segment member

/-- All between a name and the closing parenthesis of one line makes up the arguments. -/
theorem ofCall?_closed {opcode blob : String} (word : Text.isWord opcode.toList = true)
    (line : '\n' ∉ blob.toList) :
    ofCall? ("@" ++ opcode ++ "(" ++ blob ++ ")") = some ⟨opcode, callArgs blob.toList⟩ := by
  let site : CallSite := ⟨[], opcode.toList, blob.toList, []⟩
  have chosen : site.Chosen := {
    word := word
    oneLine := line
    last := by
      -- Nothing follows the closing parenthesis.
      intro between further split
      simp [site] at split
    leftmost := by
      -- Nothing stands in front of the at sign.
      intro other _ _
      exact Nat.zero_le _ }
  have whole : site.text = ("@" ++ opcode ++ "(" ++ blob ++ ")").toList := by
    simp [site, CallSite.text, CallSite.tail, String.toList_append]
  have yields : site.Yields ⟨opcode, callArgs blob.toList⟩ := by
    rw [yields_iff, String.ofList_toList]
  exact ofCall?_eq_some_iff.mpr ⟨site, chosen, whole, yields⟩

/-- A written call is read as its opcode with its segments classified. -/
theorem ofCall?_callText {opcode : String} {segments : List String}
    (word : Text.isWord opcode.toList = true)
    (clean : ∀ segment ∈ segments,
      segment ≠ "" ∧ ',' ∉ segment.toList ∧ '\n' ∉ segment.toList) :
    ofCall? (callText opcode segments) = some ⟨opcode, segments.map Arg.classify⟩ := by
  let blob := ",".intercalate segments
  have joined : blob.toList = [','].intercalate (segments.map String.toList) := by
    simp [blob]
  -- Neither a comma nor a segment breaks the line.
  have oneLine : '\n' ∉ blob.toList := by
    rw [joined]
    exact Text.not_mem_intercalate (by decide) (List.forall_mem_map.mpr fun segment member =>
      (clean segment member).2.2)
  have args : callArgs blob.toList = segments.map Arg.classify := by
    rw [joined, callArgs_intercalate, List.map_map]
    · simp [Function.comp_def]
    · rw [List.forall_mem_map]
      intro segment member
      exact ⟨by simpa using (clean segment member).1, (clean segment member).2.1⟩
  rw [callText, ofCall?_closed word oneLine, args]

/-- All that stands on one line behind a name and a bar makes up the options. -/
theorem ofOptions?_line {opcode line : String} (word : Text.isWord opcode.toList = true)
    (oneLine : '\n' ∉ line.toList) :
    ofOptions? ("@" ++ opcode ++ "|" ++ line) = some ⟨opcode, optionArgs line.toList⟩ := by
  -- The word ends at the bar, and the pieces of the line are what the option form is made of.
  have whole : ("@" ++ opcode ++ "|" ++ line).toList =
      '@' :: (opcode.toList ++ '|' :: line.toList) := by
    simp [String.toList_append]
  have form := OptionForm.pairs word oneLine (Text.pieces_eq_iff.mp rfl)
  rw [← whole] at form
  rw [ofOptions?_eq_some_iff.mpr form, String.ofList_toList]
  rfl

/-- A written option form is read as its opcode with its segments kept as texts. -/
theorem ofOptions?_optionText {opcode : String} {segments : List String}
    (word : Text.isWord opcode.toList = true)
    (clean : ∀ segment ∈ segments,
      '=' ∈ segment.toList ∧ '&' ∉ segment.toList ∧ '\n' ∉ segment.toList) :
    ofOptions? (optionText opcode segments) = some ⟨opcode, segments.map .text⟩ := by
  let line := "&".intercalate segments
  have joined : line.toList = ['&'].intercalate (segments.map String.toList) := by
    simp [line]
  have oneLine : '\n' ∉ line.toList := by
    rw [joined]
    exact Text.not_mem_intercalate (by decide) (List.forall_mem_map.mpr fun segment member =>
      (clean segment member).2.2)
  have args : optionArgs line.toList = segments.map .text := by
    rw [joined, optionArgs_intercalate, List.map_map]
    · simp [Function.comp_def]
    · rw [List.forall_mem_map]
      intro segment member
      exact ⟨(clean segment member).1, (clean segment member).2.1⟩
  rw [optionText, ofOptions?_line word oneLine, args]

/-- A name and a value with an equals sign between them. -/
def pairText (pair : String × String) : String :=
  pair.1 ++ "=" ++ pair.2

/-- A pair that stays one segment of a call and whose name is a word. -/
structure PlainPair (pair : String × String) : Prop where
  word : Text.isWord pair.1.toList = true
  comma : ',' ∉ pair.2.toList
  line : '\n' ∉ pair.2.toList

instance (pair : String × String) : Decidable (PlainPair pair) :=
  decidable_of_iff
    (Text.isWord pair.1.toList = true ∧ ',' ∉ pair.2.toList ∧ '\n' ∉ pair.2.toList)
    ⟨fun plain => ⟨plain.1, plain.2.1, plain.2.2⟩,
      fun plain => ⟨plain.word, plain.comma, plain.line⟩⟩

/-- The characters of a pair are those of its name and value around the equals sign. -/
theorem toList_pairText (pair : String × String) :
    (pairText pair).toList = pair.1.toList ++ '=' :: pair.2.toList := by
  simp [pairText, String.toList_append]

/-- A pair avoids what its value avoids, apart from what a name or the equals sign may bring. -/
theorem PlainPair.not_mem_pairText {pair : String × String} (plain : PlainPair pair) {c : Char}
    (foreign : Text.isWordChar c = false) (differ : c ≠ '=') (avoided : c ∉ pair.2.toList) :
    c ∉ (pairText pair).toList := by
  rw [toList_pairText]
  simp [Text.not_mem_word plain.word foreign, differ, avoided]

/-- A pair is a text, since its equals sign is no digit. -/
theorem classify_pairText (pair : String × String) :
    Arg.classify (pairText pair) = .text (pairText pair) := by
  -- A run of digits would have no place for the equals sign.
  have noDigits : Text.isDigits (pairText pair).toList = false := by
    rw [Bool.eq_false_iff]
    intro digits
    exact Text.not_mem_digits digits (c := '=') (by decide) (by simp [toList_pairText])
  simp [Arg.classify, noDigits]

/-- A call of pairs is read as its opcode with the pairs as texts. -/
theorem ofCall?_pairs {opcode : String} {pairs : List (String × String)}
    (word : Text.isWord opcode.toList = true) (plain : ∀ pair ∈ pairs, PlainPair pair) :
    ofCall? (callText opcode (pairs.map pairText)) =
      some ⟨opcode, pairs.map fun pair => .text (pairText pair)⟩ := by
  -- A pair stays whole between commas, and classifying it keeps it as it is.
  rw [ofCall?_callText word, List.map_map]
  · simp [Function.comp_def, classify_pairText]
  · rw [List.forall_mem_map]
    intro pair member
    obtain ⟨word, comma, line⟩ := plain pair member
    have avoids := @PlainPair.not_mem_pairText pair ⟨word, comma, line⟩
    refine ⟨?_, avoids (by decide) (by decide) comma, avoids (by decide) (by decide) line⟩
    -- Even a pair of two empty texts would have its equals sign.
    intro empty
    simpa [toList_pairText] using congrArg String.toList empty

/-- An option form of pairs is read as its opcode with the pairs as texts. -/
theorem ofOptions?_pairs {opcode : String} {pairs : List (String × String)}
    (word : Text.isWord opcode.toList = true) (plain : ∀ pair ∈ pairs, PlainPair pair)
    (separate : ∀ pair ∈ pairs, '&' ∉ pair.2.toList) :
    ofOptions? (optionText opcode (pairs.map pairText)) =
      some ⟨opcode, pairs.map fun pair => .text (pairText pair)⟩ := by
  -- Ampersands are the only further characters that a value must avoid here.
  rw [ofOptions?_optionText word, List.map_map]
  · rfl
  · rw [List.forall_mem_map]
    intro pair member
    exact ⟨by simp [toList_pairText],
      (plain pair member).not_mem_pairText (by decide) (by decide) (separate pair member),
      (plain pair member).not_mem_pairText (by decide) (by decide) (plain pair member).line⟩

end Placeholder.Directive

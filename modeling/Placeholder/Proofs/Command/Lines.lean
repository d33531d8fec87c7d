import Placeholder.Command.Run
import Placeholder.Proofs.Checked.Bytes
import Placeholder.Proofs.Text.Pieces

/-! Lines that are read one by one from bytes are those of the text that all the bytes make up. -/

namespace Placeholder.Command

/-- The byte that ends a line. -/
def lineFeed : UInt8 :=
  10

/-- The bytes of the first line, with the one that ends it, and those behind it. -/
def cutLine : List UInt8 → List UInt8 × List UInt8
  | [] => ([], [])
  | byte :: rest =>
    if byte = lineFeed then ([byte], rest) else (byte :: (cutLine rest).1, (cutLine rest).2)

/-- Behind a line there are fewer bytes. -/
theorem cutLine_length (byte : UInt8) (rest : List UInt8) :
    (cutLine (byte :: rest)).2.length ≤ rest.length := by
  induction rest generalizing byte with
  | nil =>
    unfold cutLine
    split
    · exact Nat.le_refl _
    · exact Nat.le_refl _
  | cons next rest ih =>
    rw [cutLine]
    split
    · exact Nat.le_refl _
    · exact Nat.le_succ_of_le (ih next)

/-- A line without the line feed that ends it, nor a carriage return in front of that. -/
def unended (line : List Char) : List Char :=
  if line.getLast? = some '\n' then
    let line := line.dropLast
    if line.getLast? = some '\r' then line.dropLast else line
  else line

/-- The lines of bytes, each of which is a text of its own. -/
def readLines (bytes : List UInt8) : Except FileError (List String) :=
  match bytes with
  | [] => .ok []
  | byte :: rest => do
    have := cutLine_length byte rest
    let line ← textOf (cutLine (byte :: rest)).1.toByteArray
    let others ← readLines (cutLine (byte :: rest)).2
    return String.ofList (unended line.toList) :: others
termination_by bytes.length
decreasing_by simp only [List.length_cons]; omega

/-- No byte is lost where a line is cut off. -/
theorem cutLine_append (bytes : List UInt8) : (cutLine bytes).1 ++ (cutLine bytes).2 = bytes := by
  induction bytes with
  | nil => rfl
  | cons byte rest ih =>
    rw [cutLine]
    split
    · rfl
    · exact congrArg (byte :: ·) ih

/-- A line ends with the first line feed. -/
theorem cutLine_ended {line : List UInt8} (clean : lineFeed ∉ line) (rest : List UInt8) :
    cutLine (line ++ lineFeed :: rest) = (line ++ [lineFeed], rest) := by
  induction line with
  | nil => rfl
  | cons byte line ih =>
    obtain ⟨differs, behind⟩ := not_or.mp (List.mem_cons.not.mp clean)
    rw [List.cons_append, cutLine, if_neg (Ne.symm differs), ih behind]
    rfl

/-- Without a line feed all the bytes are one line. -/
theorem cutLine_open {line : List UInt8} (clean : lineFeed ∉ line) : cutLine line = (line, []) := by
  induction line with
  | nil => rfl
  | cons byte line ih =>
    obtain ⟨differs, behind⟩ := not_or.mp (List.mem_cons.not.mp clean)
    rw [cutLine, if_neg (Ne.symm differs), ih behind]

/-- Bytes have a text exactly when they are those of the text. -/
theorem textOf_eq_ok_iff {bytes : ByteArray} {text : String} :
    textOf bytes = .ok text ↔ bytes = text.toByteArray := by
  unfold textOf String.fromUTF8?
  by_cases valid : bytes.IsValidUTF8
  · rw [dif_pos valid]
    constructor
    · intro same
      cases same
      rfl
    · rintro rfl
      rfl
  · rw [dif_neg valid]
    constructor
    · intro same
      cases same
    · rintro rfl
      exact absurd text.isValidUTF8 valid

/-- A list of bytes has a text exactly when each of its characters has its own bytes there. -/
theorem textOf_toByteArray_iff {bytes : List UInt8} {text : String} :
    textOf bytes.toByteArray = .ok text ↔ bytes = Checked.bytes text.toList := by
  have whole : text.toByteArray = (Checked.bytes text.toList).toByteArray :=
    String.utf8Encode_toList.symm
  rw [textOf_eq_ok_iff, whole, List.toByteArray_inj]

/-- A text is found again from its bytes. -/
theorem textOf_bytes (text : List Char) :
    textOf (Checked.bytes text).toByteArray = .ok (String.ofList text) :=
  textOf_toByteArray_iff.mpr (by rw [String.toList_ofList])

/-- A text with a line feed has the line in front of it and the lines behind it. -/
theorem lines_ended {line : List Char} (clean : '\n' ∉ line) (rest : List Char) :
    Text.lines (line ++ '\n' :: rest) = unended (line ++ ['\n']) :: Text.lines rest := by
  have split : Text.pieces '\n' (line ++ '\n' :: rest) = line :: Text.pieces '\n' rest := by
    induction line with
    | nil => rfl
    | cons c line ih =>
      obtain ⟨differs, behind⟩ := not_or.mp (List.mem_cons.not.mp clean)
      rw [List.cons_append, Text.pieces, if_neg (Ne.symm differs), ih behind]
  obtain ⟨piece, others, more⟩ : ∃ piece others, Text.pieces '\n' rest = piece :: others :=
    List.exists_cons_of_ne_nil (by simp [Text.pieces_eq_splitOn])
  -- There is a piece behind the line feed, so that both texts have the same last piece.
  rw [Text.lines, Text.lines, split, more, unended]
  simp only [List.dropLast_cons_cons, List.getLast?_cons_cons, List.map_cons,
    List.getLast?_concat, List.dropLast_concat, if_pos]
  split
  · rfl
  · rfl
  · rfl

/-- A text without a line feed is a line unless it is empty. -/
theorem lines_open {line : List Char} (clean : '\n' ∉ line) (filled : line ≠ []) :
    Text.lines line = [unended line] := by
  have whole : Text.pieces '\n' line = [line] := by
    rw [Text.pieces_eq_iff]
    exact ⟨by simp, by simpa using clean, by simp⟩
  have last : line.getLast? ≠ some '\n' := fun last => clean (List.mem_of_getLast? last)
  rw [Text.lines, whole, unended, if_neg last]
  cases line with
  | nil => exact absurd rfl filled
  | cons c line => rfl

/-- A line feed is a byte of exactly the texts that have one. -/
theorem lineFeed_mem_iff {text : List Char} : lineFeed ∈ Checked.bytes text ↔ '\n' ∈ text :=
  @Checked.mem_bytes_iff '\n' (by decide) text

/-- The bytes of texts that follow each other follow each other. -/
theorem bytes_append (text rest : List Char) :
    Checked.bytes (text ++ rest) = Checked.bytes text ++ Checked.bytes rest :=
  List.flatMap_append

/-- A first line is read before the lines behind it. -/
theorem readLines_cut {bytes rest : List UInt8} {line : List Char}
    (cut : cutLine bytes = (Checked.bytes line, rest)) (filled : bytes ≠ []) :
    readLines bytes = (readLines rest).map (String.ofList (unended line) :: ·) := by
  obtain ⟨byte, others, rfl⟩ := List.exists_cons_of_ne_nil filled
  rw [readLines, cut, textOf_bytes]
  show (readLines rest >>= fun others =>
    pure (String.ofList (unended (String.ofList line).toList) :: others)) = _
  rw [String.toList_ofList]
  cases readLines rest with
  | error cause => rfl
  | ok lines => rfl

/-- The line in front of a first line feed is read, and then the lines behind it. -/
theorem readLines_ended {line : List Char} (clean : '\n' ∉ line) (rest : List Char) :
    readLines (Checked.bytes (line ++ '\n' :: rest)) =
      (readLines (Checked.bytes rest)).map (String.ofList (unended (line ++ ['\n'])) :: ·) := by
  apply readLines_cut
  · rw [bytes_append, bytes_append]
    exact cutLine_ended (lineFeed_mem_iff.not.mpr clean) _
  · rw [bytes_append]
    exact List.append_ne_nil_of_right_ne_nil _ (List.cons_ne_nil lineFeed _)

/-- What is left without a line feed is read as one line. -/
theorem readLines_open {line : List Char} (clean : '\n' ∉ line) (filled : line ≠ []) :
    readLines (Checked.bytes line) = .ok [String.ofList (unended line)] := by
  rw [readLines_cut (cutLine_open (lineFeed_mem_iff.not.mpr clean)), readLines]
  · rfl
  · rw [ne_eq, ← List.length_eq_zero_iff]
    exact Checked.byteLength_eq_zero_iff.not.mpr filled

/-- The bytes of a text are read as the lines of the text. -/
theorem readLines_bytes (text : List Char) :
    readLines (Checked.bytes text) = .ok ((Text.lines text).map String.ofList) := by
  -- The induction goes from a text to what is behind its first line.
  induction size : text.length using Nat.strongRecOn generalizing text with
  | ind size ih =>
    subst size
    by_cases ended : '\n' ∈ text
    · obtain ⟨⟨line, rest⟩, cut⟩ := Option.isSome_iff_exists.mp (Text.cutFirst_isSome_iff.mpr ended)
      have shorter := Text.cutFirst_length cut
      obtain ⟨rfl, clean⟩ := Text.cutFirst_eq_some_iff.mp cut
      rw [readLines_ended clean, ih rest.length (by omega) rest rfl, lines_ended clean]
      rfl
    · by_cases filled : text = []
      · subst filled
        rw [Checked.bytes, List.flatMap_nil, readLines]
        rfl
      · rw [readLines_open ended filled, lines_open ended filled]
        rfl

/-- A text is missing for one reason only. -/
theorem textOf_eq_error {bytes : ByteArray} {cause : FileError}
    (missing : textOf bytes = .error cause) : cause = .notText := by
  unfold textOf at missing
  split at missing
  · cases missing
  · exact (Except.error.inj missing).symm

/-- The lines of bytes are read unless the bytes are no text, in which case some line is none. -/
theorem readLines_cases (bytes : List UInt8) :
    (∃ text, bytes = Checked.bytes text) ∨ readLines bytes = .error .notText := by
  -- If each line is a text, then those texts make up a text of all the bytes.
  induction bytes using readLines.induct with
  | case1 => exact Or.inl ⟨[], rfl⟩
  | case2 byte rest _ ih =>
    rw [readLines]
    cases first : textOf (cutLine (byte :: rest)).1.toByteArray with
    | error cause =>
      rw [textOf_eq_error first]
      exact Or.inr rfl
    | ok line =>
      rcases ih with ⟨behind, form⟩ | broken
      · left
        refine ⟨line.toList ++ behind, ?_⟩
        rw [bytes_append, ← textOf_toByteArray_iff.mp first, ← form, cutLine_append]
      · rw [broken]
        exact Or.inr rfl

/-- Lines that are read one by one are those of the whole text, for want of which none is read. -/
theorem readLines_eq (bytes : List UInt8) :
    readLines bytes =
      (textOf bytes.toByteArray).map fun text => (Text.lines text.toList).map String.ofList := by
  rcases readLines_cases bytes with ⟨text, rfl⟩ | broken
  · rw [readLines_bytes, textOf_bytes, Except.map, String.toList_ofList]
  · rw [broken]
    cases whole : textOf bytes.toByteArray with
    | ok text =>
      rw [textOf_toByteArray_iff.mp whole, readLines_bytes] at broken
      cases broken
    | error cause =>
      rw [textOf_eq_error whole]
      rfl

end Placeholder.Command

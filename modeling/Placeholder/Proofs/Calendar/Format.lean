import Placeholder.Proofs.Calendar.Scan

/-! A pattern is shown segment by segment, since its `%` format reads back as its segments. -/

namespace Placeholder.Calendar

namespace Strftime

/-- No specifier opens another one. -/
theorem specifiers_prefix_free : ∀ entry ∈ Field.table, ∀ other ∈ Field.table,
    other.2.2.toList <+: entry.2.2.toList → other = entry := by
  decide

/-- No specifier is opened by a percent sign. -/
theorem specifiers_plain : ∀ entry ∈ Field.table, entry.2.2.toList.head?.any (· != '%') = true := by
  decide

/-- A specifier is read as its own field, whatever follows it. -/
theorem specifier?_append {field : Field} {token specifier : String}
    (listed : (field, token, specifier) ∈ Field.table) (rest : List Char) :
    specifier? (specifier.toList ++ rest) = some (field, rest) := by
  have fits : (specifier? (specifier.toList ++ rest)).isSome := by
    rw [specifier?, List.findSome?_isSome_iff]
    exact ⟨_, listed, by simp [Text.afterOpening_eq_some_iff.mpr rfl]⟩
  obtain ⟨⟨other, after⟩, found⟩ := Option.isSome_iff_exists.mp fits
  obtain ⟨⟨part, otherToken, otherSpecifier⟩, member, opened⟩ :=
    List.exists_of_findSome?_eq_some found
  obtain ⟨remaining, whole, same⟩ := Option.map_eq_some_iff.mp opened
  cases same
  rw [Text.afterOpening_eq_some_iff] at whole
  -- Of two specifiers that open one text, the shorter one opens the longer one.
  have opens : otherSpecifier.toList <+: specifier.toList ∨
      specifier.toList <+: otherSpecifier.toList :=
    List.prefix_or_prefix_of_prefix ⟨after, whole.symm⟩ ⟨rest, rfl⟩
  have entry : (other, otherToken, otherSpecifier) = (field, token, specifier) := by
    rcases opens with opens | opens
    · exact specifiers_prefix_free _ listed _ member opens
    · exact (specifiers_prefix_free _ member _ listed opens).symm
  cases entry
  rw [found, List.append_cancel_left whole]

/-- Two percent signs are read as one that stands for itself. -/
theorem items?_percent (rest : List Char) :
    items? ('%' :: '%' :: rest) = (items? rest).map (.literal '%' :: ·) := by
  rw [items?]

/-- Any other character stands for itself. -/
theorem items?_plain {c : Char} (plain : c ≠ '%') (rest : List Char) :
    items? (c :: rest) = (items? rest).map (.literal c :: ·) := by
  rw [items?]
  · intro _ same; exact absurd same plain
  · exact plain

/-- A specifier does not start with a second percent sign. -/
theorem specifier_ne_percent {field : Field} {token specifier : String}
    (listed : (field, token, specifier) ∈ Field.table) (rest others : List Char) :
    specifier.toList ++ rest ≠ '%' :: others := by
  intro same
  have opening := specifiers_plain _ listed
  cases chars : specifier.toList with
  | nil => simp [chars] at opening
  | cons c chars' =>
    simp only [chars, List.cons_append, List.cons.injEq] at same opening
    simp [same.1] at opening

/-- A percent sign and a specifier are read as one field. -/
theorem items?_specifier {field : Field} {token specifier : String}
    (listed : (field, token, specifier) ∈ Field.table) (rest : List Char) :
    items? ('%' :: (specifier.toList ++ rest)) = (items? rest).map (.field field :: ·) := by
  have found := specifier?_append listed rest
  rw [items?]
  · split
    · rename_i part after known
      cases found.symm.trans known
      rfl
    · rename_i unknown
      cases found.symm.trans unknown
  · exact specifier_ne_percent listed rest

/-- Doubled text is read as its characters, each of which stands for itself. -/
theorem items?_doubled (text rest : List Char) :
    items? (Pattern.doubled text ++ rest) =
      (items? rest).map (text.map Item.literal ++ ·) := by
  induction text with
  | nil => simp [Pattern.doubled]
  | cons c text ih =>
    have step : Pattern.doubled (c :: text) ++ rest =
        (if c = '%' then ['%', '%'] else [c]) ++ (Pattern.doubled text ++ rest) := by
      simp [Pattern.doubled]
    rw [step]
    split
    · rename_i percent
      rw [List.cons_append, List.cons_append, List.nil_append, items?_percent, ih, Option.map_map,
        percent]
      rfl
    · rename_i plain
      rw [List.cons_append, List.nil_append, items?_plain plain, ih, Option.map_map]
      rfl

end Strftime

namespace Pattern

/-- The items that a segment stands for. -/
def Segment.items : Segment → List Strftime.Item
  | .literal text => text.map .literal
  | .field part => [.field part]

/-- The text of a segment at a clock time. -/
def Segment.text (time : ClockTime) : Segment → List Char
  | .literal text => text
  | .field part => part.text time

/-- The items of a segment have the text of the segment. -/
theorem Segment.flatMap_items (segment : Segment) (time : ClockTime) :
    segment.items.flatMap (·.text time) = segment.text time := by
  cases segment with
  | literal text =>
    -- Every character is an item of its own.
    simp [items, Segment.text, List.flatMap_map, Strftime.Item.text]
  | field part => simp [items, Segment.text, Strftime.Item.text]

/-- Every field has a specifier. -/
theorem exists_specifier (field : Field) :
    ∃ token specifier, Field.table.lookup field = some (token, specifier) ∧
      (field, token, specifier) ∈ Field.table := by
  have known : (Field.table.lookup field).isSome = true := by
    cases field <;> rfl
  obtain ⟨⟨token, specifier⟩, found⟩ := Option.isSome_iff_exists.mp known
  obtain ⟨before, after, split, -⟩ := List.lookup_eq_some_iff.mp found
  exact ⟨token, specifier, found, by simp [split]⟩

/-- A segment in a `%` format is read as the items of the segment, whatever follows it. -/
theorem items?_toStrftime (segment : Segment) (rest : List Char) :
    Strftime.items? (segment.toStrftime ++ rest) =
      (Strftime.items? rest).map (segment.items ++ ·) := by
  cases segment with
  | literal text => exact Strftime.items?_doubled text rest
  | field part =>
    obtain ⟨token, specifier, found, listed⟩ := exists_specifier part
    simp only [Segment.toStrftime, found, Option.map_some, Option.getD_some, List.cons_append]
    exact Strftime.items?_specifier listed rest

/-- A `%` format of segments is read as the items of all of them. -/
theorem items?_flatMap (parts : List Segment) :
    Strftime.items? (parts.flatMap Segment.toStrftime) = some (parts.flatMap Segment.items) := by
  -- What one segment is read as does not depend on the segments behind it.
  induction parts with
  | nil => simp [Strftime.items?]
  | cons segment parts ih =>
    rw [List.flatMap_cons, items?_toStrftime, ih, Option.map_some, List.flatMap_cons]

/-- The `%` format of a pattern is read as the items of its segments. -/
theorem items?_pattern (pattern : String) :
    Strftime.items? (toStrftime pattern).toList =
      some ((segments pattern.toList).flatMap Segment.items) := by
  rw [toStrftime, String.toList_ofList, items?_flatMap]

/-- The `%` format of a pattern is shown as the texts of its segments. -/
theorem format?_pattern (pattern : String) (time : ClockTime) :
    Strftime.format? (toStrftime pattern).toList time =
      some ((segments pattern.toList).flatMap (·.text time)) := by
  rw [Strftime.format?, items?_pattern, Option.map_some, List.flatMap_assoc]
  simp only [Segment.flatMap_items]

/-- A pattern is never shown as itself in place of the texts of its segments. -/
theorem format_eq_segments (pattern : String) (time : ClockTime) :
    format pattern time = String.ofList ((segments pattern.toList).flatMap (·.text time)) := by
  -- The format of a pattern is never broken, so the fallback is not taken.
  rw [format, format?_pattern]

/--
A pattern is shown as the texts of its segments, one after another.

The segments are those of the only scan of the pattern. Its `%` format is never broken, and is
read as their items: every character of a literal stands for itself, and every field for one field.
-/
theorem format_shows_scanned_segments (pattern : String) (instant : Instant) (offset : Int) :
    ∃ parts, (∀ others, Scan pattern.toList others ↔ others = parts) ∧
      Strftime.items? (toStrftime pattern).toList = some (parts.flatMap Segment.items) ∧
      Strftime.format? (toStrftime pattern).toList (instant.at offset) =
        some (parts.flatMap (·.text (instant.at offset))) ∧
      format pattern (instant.at offset) =
        String.ofList (parts.flatMap (·.text (instant.at offset))) := by
  have shown := format?_pattern pattern (instant.at offset)
  refine ⟨segments pattern.toList, fun _ => scan_iff, items?_pattern pattern, shown, ?_⟩
  rw [format, shown]

end Pattern

end Placeholder.Calendar

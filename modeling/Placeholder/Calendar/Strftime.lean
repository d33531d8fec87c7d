import Placeholder.Calendar.Field
import Placeholder.Text.Pieces

/-! Formats in the manner of `strftime`, in which a percent sign opens the specifier of a field. -/

namespace Placeholder.Calendar.Strftime

/-- A part of a format. -/
inductive Item where
  /-- A character that stands for itself. -/
  | literal (c : Char)
  /-- A field of the clock time. -/
  | field (field : Field)
deriving DecidableEq, Repr

/-- The field whose specifier opens a text, with the text after it. -/
def specifier? (text : List Char) : Option (Field × List Char) :=
  Field.table.findSome? fun (field, _, specifier) =>
    (Text.afterOpening specifier.toList text).map (field, ·)

/-- What follows a specifier is no longer than the text that it opens. -/
theorem specifier?_length {text rest : List Char} {field : Field}
    (found : specifier? text = some (field, rest)) : rest.length ≤ text.length := by
  -- The table entry that fits has its specifier taken off the front.
  obtain ⟨⟨_, _, specifier⟩, _, fits⟩ := List.exists_of_findSome?_eq_some found
  obtain ⟨after, opened, same⟩ := Option.map_eq_some_iff.mp fits
  have whole := Text.afterOpening_length opened
  simp only [Prod.mk.injEq] at same
  rw [same.2] at whole
  omega

/-- The items of a format, which has none when a percent sign opens no specifier. -/
def items? (format : List Char) : Option (List Item) :=
  match format with
  | [] => some []
  | '%' :: '%' :: rest => (items? rest).map (.literal '%' :: ·)
  | '%' :: rest =>
    match found : specifier? rest with
    | some (part, after) =>
      have := specifier?_length found
      (items? after).map (.field part :: ·)
    | none => none
  | c :: rest => (items? rest).map (.literal c :: ·)
termination_by format.length
decreasing_by all_goals simp only [List.length_cons]; omega

/-- The text of an item at a clock time. -/
def Item.text (item : Item) (time : ClockTime) : List Char :=
  match item with
  | .literal c => [c]
  | .field part => part.text time

/-- The texts of all items of a format, which a broken format does not have. -/
def format? (format : List Char) (time : ClockTime) : Option (List Char) :=
  (items? format).map fun items => items.flatMap (·.text time)

end Placeholder.Calendar.Strftime

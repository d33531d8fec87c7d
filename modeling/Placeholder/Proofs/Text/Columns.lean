import Mathlib.Data.List.Forall2
import Placeholder.Proofs.Text.Digits
import Placeholder.Proofs.Text.Pieces

/-! Records of fixed columns are read back, and are ordered like the values in them. -/

namespace Placeholder.Text

/-- A column of a record, which is a number of digits with a fixed text behind them. -/
structure Column where
  width : Nat
  after : List Char
  wide : 0 < width := by decide

namespace Column

/-- Values written into columns, with zeros in front of each up to the width of its column. -/
def write : List Column → List Nat → List Char
  | column :: columns, value :: values =>
    zeroPadded column.width value ++ (column.after ++ write columns values)
  | _, _ => []

/-- The values that a whole text has in columns. -/
def read? : List Column → List Char → Option (List Nat)
  | [], text => if text.isEmpty then some [] else none
  | column :: columns, text => do
    let digits := text.take column.width
    let rest ← afterOpening column.after (text.drop column.width)
    let values ← read? columns rest
    if digits.length = column.width ∧ isDigits digits = true then
      return decimalValue digits :: values
    else none

/-- There is a value for each column, and it has no more digits than fit. -/
def Fit (columns : List Column) (values : List Nat) : Prop :=
  List.Forall₂ (fun column value => value < 10 ^ column.width) columns values

/-- Written values are read again. -/
theorem read?_write {columns : List Column} {values : List Nat} (fit : Fit columns values) :
    read? columns (write columns values) = some values := by
  -- The width of a column tells where its digits end.
  induction fit with
  | nil => rfl
  | @cons column value columns values fits _ ih =>
    have length := length_zeroPadded column.wide fits
    have digits : (write (column :: columns) (value :: values)).take column.width =
        zeroPadded column.width value := List.take_left' length
    have rest : (write (column :: columns) (value :: values)).drop column.width =
        column.after ++ write columns values := List.drop_left' length
    rw [read?, digits, rest, afterOpening_eq_some_iff.mpr rfl]
    simp [ih, length, isDigits_zeroPadded]

/-- Written values are ordered by the first column in which they differ. -/
theorem write_lt {columns : List Column} {values others : List Nat} (fit : Fit columns values)
    (otherFit : Fit columns others) (smaller : values < others) :
    write columns values < write columns others := by
  -- Equal values take up the same place, so the columns behind them are compared next.
  induction fit generalizing others with
  | nil =>
    cases otherFit
    exact absurd smaller (List.lt_irrefl _)
  | @cons column value columns values fits _ ih =>
    cases otherFit with
    | @cons _ other _ others otherFits otherFit =>
      rcases List.cons_lt_cons_iff.mp smaller with below | ⟨rfl, behind⟩
      · refine append_lt_of_decimalValue_lt (isDigits_iff.mp (isDigits_zeroPadded _ _)).2
          (isDigits_iff.mp (isDigits_zeroPadded _ _)).2 ?_ ?_
        · rw [length_zeroPadded column.wide fits, length_zeroPadded column.wide otherFits]
        · rwa [decimalValue_zeroPadded, decimalValue_zeroPadded]
      · exact List.append_left_lt (List.append_left_lt (ih otherFit behind))

end Column

end Placeholder.Text

import Placeholder.Binary64.Arithmetic
import Mathlib.Order.Compare

/-! Numbers other than not-a-number are in order, which minima, maxima and clamps rely on. -/

namespace Placeholder.Binary64

/-- A finite number is no not-a-number. -/
theorem isNaN_of_isFinite {value : Binary64} (finite : value.isFinite = true) :
    value.isNaN = false := by
  cases value with
  | nan => cases finite
  | infinity => rfl
  | finite => rfl

/-- The order of two numbers is turned around with them. -/
theorem order?_swap (left right : Binary64) :
    right.order? left = (left.order? right).map Ordering.swap := by
  -- Not-a-number has no order in either place, and all other numbers are compared as integers.
  cases left with
  | nan => cases right <;> rfl
  | infinity leftSign =>
    cases right with
    | nan => rfl
    | infinity rightSign => cases leftSign <;> cases rightSign <;> rfl
    | finite => cases leftSign <;> rfl
  | finite leftSign leftUnits _ =>
    cases right with
    | nan => rfl
    | infinity rightSign => cases rightSign <;> rfl
    | finite rightSign rightUnits _ =>
      simp only [order?, Option.map_some, Int.compare_swap]

/-- Two numbers have an order unless one of them is not-a-number. -/
theorem order?_isSome_iff {left right : Binary64} :
    (left.order? right).isSome ↔ left.isNaN = false ∧ right.isNaN = false := by
  cases left <;> cases right <;> simp [order?, isNaN]

/-- A number is at least itself. -/
theorem atLeast_self {value : Binary64} (number : value.isNaN = false) :
    value.atLeast value = true := by
  cases value with
  | nan => cases number
  | infinity sign => cases sign <;> rfl
  | finite sign units _ => simp [atLeast, order?]

/-- The larger of two numbers in strict order is at least the smaller one. -/
theorem atLeast_of_less {left right : Binary64} (below : left.less right = true) :
    right.atLeast left = true := by
  have order : left.order? right = some .lt := by simpa [less] using below
  simp [atLeast, order?_swap left right, order]

/-- A number that is not below another one is at least as large. -/
theorem atLeast_of_not_less {left right : Binary64} (leftNumber : left.isNaN = false)
    (rightNumber : right.isNaN = false) (above : left.less right = false) :
    left.atLeast right = true := by
  obtain ⟨order, found⟩ :=
    Option.isSome_iff_exists.mp (order?_isSome_iff.mpr ⟨leftNumber, rightNumber⟩)
  cases order with
  | lt => simp [less, found] at above
  | eq => simp [atLeast, found]
  | gt => simp [atLeast, found]

/-- Numbers that are in order are no not-a-number. -/
theorem numbers_of_atLeast {left right : Binary64} (ordered : left.atLeast right = true) :
    left.isNaN = false ∧ right.isNaN = false := by
  rw [← order?_isSome_iff]
  cases found : left.order? right with
  | none => simp [atLeast, found] at ordered
  | some order => rfl

/-- The larger of two numbers is at least the smaller one. -/
theorem max_atLeast_min {left : Binary64} (number : left.isNaN = false) (right : Binary64) :
    (left.max right).atLeast (left.min right) = true := by
  rw [max, min, number]
  -- At most one of the two strict comparisons holds.
  cases below : left.less right with
  | true =>
    have above := atLeast_of_less below
    have unopposed : right.less left = false := by
      have order : left.order? right = some .lt := by simpa [less] using below
      simp [less, order?_swap left right, order]
    simp [unopposed, above]
  | false =>
    cases above : right.less left with
    | true => simpa using atLeast_of_less above
    | false => simpa using atLeast_self number

/-- A clamped number lies between the bounds. -/
theorem clamp_between {value lower upper : Binary64} (number : value.isNaN = false)
    (ordered : upper.atLeast lower = true) :
    (value.clamp lower upper).atLeast lower = true ∧
      upper.atLeast (value.clamp lower upper) = true := by
  obtain ⟨upperNumber, lowerNumber⟩ := numbers_of_atLeast ordered
  rw [clamp]
  cases below : value.less lower with
  | true => exact ⟨atLeast_self lowerNumber, ordered⟩
  | false =>
    cases above : upper.less value with
    | true => exact ⟨ordered, atLeast_self upperNumber⟩
    | false =>
      exact ⟨atLeast_of_not_less number lowerNumber below,
        atLeast_of_not_less upperNumber number above⟩

/-- One is at least zero. -/
theorem one_atLeast_zero : one.atLeast zero = true := by
  decide +kernel

end Placeholder.Binary64

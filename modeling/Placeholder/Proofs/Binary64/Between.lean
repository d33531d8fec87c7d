import Placeholder.Proofs.Binary64.Numbers

/-! Numbers that are clamped lie between their bounds, and not-a-number comes out of every step. -/

namespace Placeholder.Binary64

/-- A value between two numbers is no less than one of them and no more than the other. -/
def Within (first second value : Binary64) : Prop :=
  value.atLeast first = true ∧ second.atLeast value = true ∨
    value.atLeast second = true ∧ first.atLeast value = true

/-- What lies between two numbers is one itself. -/
theorem Within.isNaN {first second value : Binary64} (within : Within first second value) :
    value.isNaN = false := by
  -- Not-a-number is not in order with anything.
  rcases within with ⟨above, -⟩ | ⟨above, -⟩
  · exact (numbers_of_atLeast above).1
  · exact (numbers_of_atLeast above).1

/-- Equal numbers are in the same order with every other value. -/
theorem order?_congr {first second : Binary64} (same : first.order? second = some .eq)
    (value : Binary64) : value.order? first = value.order? second := by
  -- Infinities are equal only when they are the same, and finite numbers when their units are.
  cases first with
  | nan => cases second <;> cases same
  | infinity sign =>
    cases second with
    | nan => cases same
    | infinity other => cases sign <;> cases other <;> first | rfl | cases same
    | finite => cases sign <;> cases same
  | finite sign units _ =>
    cases second with
    | nan => cases same
    | infinity other => cases other <;> cases same
    | finite other others _ =>
      have equal : signedUnits sign units = signedUnits other others := by
        simpa [order?] using same
      cases value <;> simp [order?, equal]

/-- A number that is clamped to the smaller and the larger of two others lies between them. -/
theorem within_clamp {first second value : Binary64} (number : value.isNaN = false)
    (firstNumber : first.isNaN = false) (secondNumber : second.isNaN = false) :
    Within first second (value.clamp (first.min second) (first.max second)) := by
  have between := clamp_between number (max_atLeast_min firstNumber second)
  generalize value.clamp (first.min second) (first.max second) = result at between
  rw [min, max, firstNumber] at between
  obtain ⟨order, found⟩ :=
    Option.isSome_iff_exists.mp (order?_isSome_iff.mpr ⟨firstNumber, secondNumber⟩)
  have turned : second.order? first = some order.swap := by
    rw [order?_swap first second, found, Option.map_some]
  -- The order of the two decides which of them is the lower bound.
  cases order with
  | lt =>
    left
    simpa [less, found, turned] using between
  | eq =>
    left
    -- Either of two equal bounds stands for the other one.
    have same : second.order? result = first.order? result := by
      rw [order?_swap result second, order?_swap result first, order?_congr found]
    have bounds : result.atLeast first = true ∧ first.atLeast result = true := by
      simpa [less, found, turned] using between
    have below := bounds.2
    rw [atLeast, ← same] at below
    exact ⟨bounds.1, below⟩
  | gt =>
    right
    simpa [less, found, turned] using between

/-- Factors can be exchanged. -/
theorem mul_comm (left right : Binary64) : left * right = right * left := by
  show left.mul right = right.mul left
  cases left <;> cases right <;> simp [mul, bne_comm, Nat.mul_comm]

/-- A factor that is not zero leaves every number one. -/
theorem isNaN_nonzero_mul {left right : Binary64} (nonzero : left.Nonzero)
    (number : right.isNaN = false) : (left * right).isNaN = false := by
  rw [mul_comm]
  exact isNaN_mul_nonzero number nonzero

/-- Zero has no product with what is not finite. -/
theorem zero_mul_of_not_finite {factor : Binary64} (infinite : factor.isFinite = false) :
    zero * factor = nan := by
  show zero.mul factor = nan
  -- An infinity has none with zero, and not-a-number has none at all.
  cases factor with
  | nan => rfl
  | infinity sign => simp [zero, mul]
  | finite => cases infinite

/-- Finite numbers have a difference, even when it overflows. -/
theorem isNaN_sub {left right : Binary64} (leftFinite : left.isFinite = true)
    (rightFinite : right.isFinite = true) : (left - right).isNaN = false := by
  -- A difference is the sum with the opposite number, which is as finite as the number.
  have opposite : right.neg.isFinite = true := by
    cases right with
    | nan => cases rightFinite
    | infinity => cases rightFinite
    | finite => rfl
  exact isNaN_add (isNaN_of_isFinite leftFinite) opposite

/-- Not-a-number comes out of a sum. -/
theorem nan_add (right : Binary64) : nan + right = nan := by
  show nan.add right = nan
  cases right <;> rfl

/-- Not-a-number comes out of a product. -/
theorem nan_mul (right : Binary64) : nan * right = nan := by
  show nan.mul right = nan
  cases right <;> rfl

/-- Not-a-number comes out of a quotient. -/
theorem nan_div (right : Binary64) : nan / right = nan := by
  show nan.div right = nan
  cases right <;> rfl

/-- Not-a-number has no order, so that a clamp leaves it alone. -/
theorem clamp_nan (lower upper : Binary64) : nan.clamp lower upper = nan := by
  have below : nan.less lower = false := by cases lower <;> rfl
  have above : upper.less nan = false := by cases upper <;> rfl
  simp [clamp, below, above]

end Placeholder.Binary64

import Placeholder.Generator.Declared
import Placeholder.Generator.Text
import Placeholder.Proofs.Binary64.Order
import Placeholder.Proofs.Random.Results

/-! Bounds of what is drawn, and of the bounds themselves. -/

namespace Placeholder.Generator

/-- An integer lies between its bounds, whichever of them is the lower one. -/
theorem integerAt_between (fraction : Binary64) (min max : Int64) :
    (if max < min then max else min) ≤ integerAt fraction min max ∧
      integerAt fraction min max ≤ (if max < min then min else max) := by
  -- Whatever the position comes to, it is moved between the bounds at the end.
  unfold integerAt
  dsimp only
  generalize Binary64.toInt64 _ = value
  simp only [Int64.lt_iff_toInt_lt, Int64.le_iff_toInt_le]
  split <;> split <;> (try split) <;> omega

/-- An integer lies within all limits that both of its bounds lie within. -/
theorem integer_always {min max low high : Int64} (minWithin : low ≤ min ∧ min ≤ high)
    (maxWithin : low ≤ max ∧ max ≤ high) :
    (integer (some min) (some max)).Always fun value => low ≤ value ∧ value ≤ high := by
  unfold integer
  refine Draw.always_bind (Draw.always_true _) fun fraction _ => Draw.always_pure ?_
  obtain ⟨above, below⟩ := integerAt_between fraction min max
  constructor
  · refine Int64.le_trans ?_ above
    split
    · exact maxWithin.1
    · exact minWithin.1
  · refine Int64.le_trans below ?_
    split
    · exact minWithin.2
    · exact maxWithin.2

/-- The limits of lengths are in order. -/
theorem leastLength_le_greatestLength : leastLength ≤ greatestLength := by
  decide

/-- A least length lies within the limits. -/
theorem lowerLength_between (min : Option Int64) :
    leastLength ≤ lowerLength min ∧ lowerLength min ≤ greatestLength := by
  have least := Int64.le_refl leastLength
  have greatest := Int64.le_refl greatestLength
  have ordered := leastLength_le_greatestLength
  -- A length that is kept has passed both comparisons.
  cases min with
  | none => exact ⟨least, ordered⟩
  | some min =>
    dsimp only [lowerLength]
    split
    · exact ⟨least, ordered⟩
    · rename_i counted
      split
      · exact ⟨ordered, greatest⟩
      · rename_i within
        exact ⟨Int64.not_lt.mp (not_or.mp counted).2, Int64.not_lt.mp within⟩

/-- A greatest length lies within the limits. -/
theorem upperLength_between (max : Option Int64) :
    leastLength ≤ upperLength max ∧ upperLength max ≤ greatestLength := by
  have least := Int64.le_refl leastLength
  have greatest := Int64.le_refl greatestLength
  have ordered := leastLength_le_greatestLength
  cases max with
  | none => exact ⟨ordered, greatest⟩
  | some max =>
    dsimp only [upperLength]
    split
    · exact ⟨ordered, greatest⟩
    · rename_i counted
      split
      · exact ⟨least, ordered⟩
      · rename_i within
        exact ⟨Int64.not_lt.mp within, Int64.not_lt.mp (not_or.mp counted).2⟩

/-- A bound of floats is finite. -/
theorem isFinite_of_floatBound? {options : Options} {name : String} {position : Nat}
    {bound : Binary64} (found : floatBound? options name position = some bound) :
    bound.isFinite = true := by
  obtain ⟨text, _, read⟩ := Option.bind_eq_some_iff.mp found
  exact (Option.filter_eq_some_iff.mp read).2

/-- At most ten decimal places are kept. -/
theorem decimalPlaces_le (options : Options) : (decimalPlaces options).toNat ≤ 10 := by
  have kept := Nat.min_le_right ((options.integer? "decimals" 2).getD 2).toInt.toNat 10
  rw [decimalPlaces, UInt32.toNat_ofNat_of_lt' (Nat.lt_of_le_of_lt kept (by decide))]
  exact kept

end Placeholder.Generator

namespace Placeholder.Recipe

/-- A bound that is replaced when it is not finite is finite. -/
theorem isFinite_finiteOr {fallback : Binary64} (finite : fallback.isFinite = true)
    (bound : Binary64) : (finiteOr fallback bound).isFinite = true := by
  unfold finiteOr
  split
  · assumption
  · exact finite

/-- The probability of a weight lies between zero and one. -/
theorem probability_between (weight : Binary64) :
    (probability weight).atLeast .zero = true ∧
      Binary64.one.atLeast (probability weight) = true := by
  unfold probability
  split
  · -- Even chances are the only case that has to be computed.
    decide +kernel
  · exact Binary64.clamp_between (Bool.eq_false_iff.mpr ‹_›) Binary64.one_atLeast_zero

end Placeholder.Recipe

import Placeholder.Generator.Declared
import Placeholder.Proofs.Binary64.Between
import Placeholder.Proofs.Generator.Floats
import Placeholder.Proofs.Resolver.Forms

/-! Floats lie between their bounds, unless a fraction of zero meets a distance that overflows. -/

namespace Placeholder

namespace Draw

/-- The fraction of a word is zero when the upper 53 bits of the word are. -/
theorem fractionOf_eq_zero {word : UInt64} (low : word.toNat < 2048) :
    fractionOf word = Binary64.zero := by
  have none : (word >>> 11).toNat = 0 := by
    rw [UInt64.toNat_shiftRight, Nat.shiftRight_eq_div_pow]
    exact Nat.div_eq_of_lt low
  unfold fractionOf
  generalize 1021 = places
  rw [none, Nat.zero_mul, Binary64.ofUnits, dif_pos representable_zero, Binary64.zero]

/-- The fraction of any other word is a number other than zero. -/
theorem fractionOf_nonzero {word : UInt64} (high : 2048 ≤ word.toNat) :
    (fractionOf word).Nonzero := by
  have finite := isFinite_fractionOf word
  have some : (word >>> 11).toNat ≠ 0 := by
    rw [UInt64.toNat_shiftRight, Nat.shiftRight_eq_div_pow]
    exact Nat.ne_of_gt (Nat.div_pos high (by decide))
  unfold fractionOf at finite ⊢
  generalize 1021 = places at finite ⊢
  rw [Binary64.ofUnits] at finite ⊢
  split at finite
  · rename_i fits
    rw [dif_pos fits]
    exact .finite _ _ _ (Nat.mul_ne_zero some (Nat.ne_of_gt (Nat.two_pow_pos places)))
  · cases finite

end Draw

namespace Generator

/-- The next fraction is zero, and the distance between two bounds overflows. -/
def Undefined (source : Source) (min max : Binary64) : Prop :=
  (source.word source.drawn).toNat < 2048 ∧ (max - min).isFinite = false

variable {min max : Binary64} {places : Option UInt32}

/-- Not-a-number is rounded to itself. -/
theorem roundedTo_nan (places : UInt32) : roundedTo places .nan = .nan := by
  rw [roundedTo, Binary64.nan_mul]
  exact Binary64.nan_div _

/-- No fraction at all of an infinite distance leaves not-a-number. -/
theorem floatAt_zero (infinite : (max - min).isFinite = false) :
    floatAt .zero min max places = .nan := by
  unfold floatAt
  dsimp only
  rw [Binary64.zero_mul_of_not_finite infinite, Binary64.nan_add]
  -- Neither rounding nor the clamp at the end brings a number back.
  cases places with
  | none => exact Binary64.clamp_nan _ _
  | some count =>
    dsimp only
    rw [roundedTo_nan]
    exact Binary64.clamp_nan _ _

/-- Where the share of the distance is a number, a float lies between its bounds. -/
theorem floatAt_within {fraction : Binary64} (minFinite : min.isFinite = true)
    (maxFinite : max.isFinite = true) (few : ∀ count ∈ places, count.toNat ≤ 10)
    (share : (fraction * (max - min)).isNaN = false) :
    Binary64.Within min max (floatAt fraction min max places) := by
  have position := Binary64.isNaN_add share minFinite
  have minNumber := Binary64.isNaN_of_isFinite minFinite
  have maxNumber := Binary64.isNaN_of_isFinite maxFinite
  unfold floatAt
  -- Rounding to a few places keeps a number one, and the clamp moves it between the bounds.
  cases places with
  | none => exact Binary64.within_clamp position minNumber maxNumber
  | some count =>
    exact Binary64.within_clamp (isNaN_roundedTo (few count rfl) position) minNumber maxNumber

/-- The share of the distance is a number unless the distance overflows and the share is zero. -/
theorem isNaN_share {word : UInt64} (minFinite : min.isFinite = true)
    (maxFinite : max.isFinite = true)
    (defined : ¬ (word.toNat < 2048 ∧ (max - min).isFinite = false)) :
    (Draw.fractionOf word * (max - min)).isNaN = false := by
  cases bounded : (max - min).isFinite with
  | true => exact Binary64.isNaN_mul (Draw.isFinite_fractionOf word) bounded
  | false =>
    have high : 2048 ≤ word.toNat := Nat.le_of_not_lt fun low => defined ⟨low, bounded⟩
    exact Binary64.isNaN_nonzero_mul (Draw.fractionOf_nonzero high)
      (Binary64.isNaN_sub maxFinite minFinite)

/-- A drawn float lies between finite bounds, or else it is not-a-number. -/
def LiesBetween (source : Source) (min max value : Binary64) : Prop :=
  (value.isNaN = true ↔ Undefined source min max) ∧
    (¬ Undefined source min max → Binary64.Within min max value)

/-- The next word decides the fraction that a float is drawn with. -/
theorem run_float (min max : Binary64) (places : Option UInt32) (source : Source) :
    ((float min max places).run source).1 =
      floatAt (Draw.fractionOf (source.word source.drawn)) min max places :=
  rfl

/-- A float between finite bounds is inside unless its share of their distance is undefined. -/
theorem float_liesBetween (source : Source) (minFinite : min.isFinite = true)
    (maxFinite : max.isFinite = true) (few : ∀ count ∈ places, count.toNat ≤ 10) :
    LiesBetween source min max ((float min max places).run source).1 := by
  have defined : ¬ Undefined source min max →
      Binary64.Within min max ((float min max places).run source).1 := fun defined =>
    floatAt_within minFinite maxFinite few (isNaN_share minFinite maxFinite defined)
  refine ⟨⟨fun lost => ?_, fun undefined_ => ?_⟩, defined⟩
  · -- A float that lies between its bounds is a number.
    apply Classical.byContradiction
    intro apart
    rw [(defined apart).isNaN] at lost
    cases lost
  · rw [run_float, Draw.fractionOf_eq_zero undefined_.1, floatAt_zero undefined_.2]
    rfl

/-- A bound of the generator `float` is finite, whether it is given or not. -/
theorem isFinite_bound {fallback : Binary64} (finite : fallback.isFinite = true)
    (options : Options) (name : String) (position : Nat) :
    ((floatBound? options name position).getD fallback).isFinite = true := by
  cases found : floatBound? options name position with
  | none => exact finite
  | some bound => exact isFinite_of_floatBound? found

/-- A recipe for floats draws between its bounds as they count. -/
theorem generate_floatRange (min max : Binary64) :
    (Recipe.floatRange min max).generate =
      Value.float <$> float (Recipe.finiteOr .zero min) (Recipe.finiteOr .one max) none := by
  rw [Recipe.generate, ← bind_pure_comp]

/--
A float lies between its bounds, unless a fraction of zero meets a distance that overflows.

In that one case the product of the two is not-a-number, which neither the rounding to decimal
places nor the clamp to the bounds turns into a number again. The same holds of the generator
`float` for all arguments and of recipes for floats, where the bounds are always finite.
-/
theorem floats_lie_between_bounds (source : Source) :
    (∀ min max : Binary64, min.isFinite = true → max.isFinite = true →
      ∀ places : Option UInt32, (∀ count ∈ places, count.toNat ≤ 10) →
        LiesBetween source min max ((float min max places).run source).1) ∧
    (∀ (resolver : Resolver) (args : List Arg), ∃ value,
      ((resolver.invoke ⟨"float", args⟩).run source).1 = some (.float value) ∧
        LiesBetween source ((floatBound? ⟨args⟩ "min" 0).getD .zero)
          ((floatBound? ⟨args⟩ "max" 1).getD .one) value) ∧
    ∀ min max : Binary64, ∃ value,
      ((Recipe.floatRange min max).generate.run source).1 = .float value ∧
        LiesBetween source (Recipe.finiteOr .zero min) (Recipe.finiteOr .one max) value := by
  have zero : Binary64.zero.isFinite = true := rfl
  have one : Binary64.one.isFinite = true := by decide +kernel
  refine ⟨fun min max minFinite maxFinite places few => float_liesBetween source minFinite
    maxFinite few, fun resolver args => ?_, fun min max => ?_⟩
  · -- The built-in generator draws between its options with at most ten places.
    rw [Resolver.invoke_builtin resolver (show _ = some generateFloat from rfl) args,
      generateFloat_eq_float, Draw.run_map, Draw.run_map]
    have few : ∀ count ∈ some (decimalPlaces ⟨args⟩), count.toNat ≤ 10 := by
      intro count asked
      cases asked
      exact decimalPlaces_le ⟨args⟩
    exact ⟨_, rfl, float_liesBetween source (isFinite_bound zero _ _ _)
      (isFinite_bound one _ _ _) few⟩
  · -- A recipe draws without places, between bounds of which none is left infinite.
    rw [generate_floatRange, Draw.run_map]
    exact ⟨_, rfl, float_liesBetween source (Recipe.isFinite_finiteOr zero min)
      (Recipe.isFinite_finiteOr one max) nofun⟩

/-- The largest powers of ten with both signs, whose distance overflows. -/
def farBounds : Binary64 × Binary64 :=
  (.ofDecimal true 1 308, .ofDecimal false 1 308)

/-- Both bounds are finite, and their distance is not. -/
theorem farBounds_overflow :
    farBounds.1.isFinite = true ∧ farBounds.2.isFinite = true ∧
      (farBounds.2 - farBounds.1).isFinite = false := by
  refine ⟨?_, ?_, ?_⟩ <;> decide +kernel

/-- Between bounds whose distance overflows a word that is not too small gives a number. -/
theorem far_bounds_kept :
    farBounds.1.isFinite = true ∧ farBounds.2.isFinite = true ∧
      (farBounds.2 - farBounds.1).isFinite = false ∧
      Binary64.Within farBounds.1 farBounds.2
        ((float farBounds.1 farBounds.2 (some 10)).run (.ofTape #[2048] 0)).1 := by
  obtain ⟨low, high, wide⟩ := farBounds_overflow
  have drawn := (floats_lie_between_bounds (.ofTape #[2048] 0)).1 farBounds.1 farBounds.2 low high
    (some 10) (by simp)
  -- The word is the least one whose fraction is not zero.
  have defined : ¬ Undefined (.ofTape #[2048] 0) farBounds.1 farBounds.2 := by
    intro undefined_
    exact absurd undefined_.1 (by decide)
  exact ⟨low, high, wide, drawn.2 defined⟩

/-- Between the same bounds a word of zero gives not-a-number. -/
theorem zero_word_between_far_bounds :
    farBounds.1.isFinite = true ∧ farBounds.2.isFinite = true ∧
      ((float farBounds.1 farBounds.2 none).run (.ofTape #[0] 0)).1 = .nan := by
  obtain ⟨low, high, wide⟩ := farBounds_overflow
  refine ⟨low, high, ?_⟩
  rw [run_float, Draw.fractionOf_eq_zero (by decide), floatAt_zero wide]

end Generator

end Placeholder

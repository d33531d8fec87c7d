import Placeholder.Proofs.Generator.Bounds

/-! Strings have the length that is given, or one that is drawn between two bounds within limits. -/

namespace Placeholder.Generator

/-- The end of the lengths that a bound stands for, with the end that is left without a bound. -/
inductive LengthEnd (absent : Int) : Option Int64 → Int → Prop where
  | missing : LengthEnd absent none absent
  | zero : LengthEnd absent (some 0) absent
  | beyond {bound : Int64} (above : 100 < bound.toInt) : LengthEnd absent (some bound) 100
  | negative {bound : Int64} (below : bound.toInt < 0) : LengthEnd absent (some bound) 1
  | kept {bound : Int64} (least : 1 ≤ bound.toInt) (greatest : bound.toInt ≤ 100) :
    LengthEnd absent (some bound) bound.toInt

/-- A length that is taken as it is. -/
def Taken (length : Int64) : Prop :=
  1 ≤ length.toInt ∧ length.toInt ≤ 100

instance (length : Int64) : Decidable (Taken length) :=
  inferInstanceAs (Decidable (_ ∧ _))

/-- The limits of lengths are one and a hundred. -/
theorem toInt_limits : leastLength.toInt = 1 ∧ greatestLength.toInt = 100 :=
  ⟨rfl, rfl⟩

/-- A length is taken when it lies between the limits. -/
theorem taken_iff {length : Int64} :
    Taken length ↔ (leastLength ≤ length && length ≤ greatestLength) = true := by
  -- The order of machine integers is that of the integers they stand for.
  simp [Taken, Int64.le_iff_toInt_le, toInt_limits]

/-- What counts for a greatest length is the end that it stands for. -/
theorem lengthEnd_upperLength (max : Option Int64) :
    LengthEnd 100 max (upperLength max).toInt := by
  cases max with
  | none => exact .missing
  | some max =>
    -- The tests split the integers at zero and at the limits.
    simp only [upperLength, Int64.lt_iff_toInt_lt, toInt_limits]
    split
    · rename_i replaced
      rcases replaced with rfl | above
      · exact .zero
      · exact .beyond above
    · rename_i counted
      have nonzero : max.toInt ≠ 0 := fun zero => counted (Or.inl (Int64.toInt_inj.mp zero))
      split
      · exact .negative (by omega)
      · exact .kept (by omega) (by omega)

/-- What counts for a least length is the end that it stands for. -/
theorem lengthEnd_lowerLength (min : Option Int64) :
    LengthEnd 1 min (lowerLength min).toInt := by
  cases min with
  | none => exact .missing
  | some min =>
    -- Zero and the negative lengths are replaced alike, which their ends tell apart by name only.
    simp only [lowerLength, Int64.lt_iff_toInt_lt, toInt_limits]
    split
    · rename_i replaced
      by_cases zero : min = 0
      · rw [zero]
        exact .zero
      · have nonzero : min.toInt ≠ 0 := fun same => zero (Int64.toInt_inj.mp same)
        have low := replaced.resolve_left zero
        exact .negative (by omega)
    · rename_i counted
      split
      · exact .beyond (by omega)
      · exact .kept (by omega) (by omega)

namespace LengthEnd

variable {absent bound : Int}

/-- An end lies between the limits when the one that is left without a bound does. -/
theorem between {asked : Option Int64} (is : LengthEnd absent asked bound) (least : 1 ≤ absent)
    (greatest : absent ≤ 100) : 1 ≤ bound ∧ bound ≤ 100 := by
  cases is <;> omega

/-- A length within the limits is its own end. -/
theorem eq_of_taken {asked : Int64} (is : LengthEnd absent (some asked) bound)
    (taken : Taken asked) : bound = asked.toInt := by
  obtain ⟨least, greatest⟩ := taken
  -- Every other way to an end is open to integers beyond the limits only.
  cases is with
  | zero => exact absurd least (by decide)
  | beyond above => omega
  | negative below => omega
  | kept => rfl

/-- Without a greatest length, or with one that is zero or beyond the limit, the limit is left. -/
theorem eq_of_replaced {max : Option Int64} (is : LengthEnd 100 max bound)
    (replaced : ∀ greatest, max = some greatest → greatest = 0 ∨ 100 < greatest.toInt) :
    bound = 100 := by
  -- The two ways to another end are open to integers that are not replaced.
  cases is with
  | missing => rfl
  | zero => rfl
  | beyond => rfl
  | negative below =>
    rcases replaced _ rfl with rfl | above
    · exact absurd below (by decide)
    · omega
  | kept least greatest =>
    rcases replaced _ rfl with rfl | above
    · exact absurd least (by decide)
    · omega

end LengthEnd

/-- An integer is drawn between its bounds, whichever of them is the lower one. -/
theorem integer_between (min max : Int64) :
    (integer (some min) (some max)).Always fun value =>
      Min.min min.toInt max.toInt ≤ value.toInt ∧ value.toInt ≤ Max.max min.toInt max.toInt := by
  unfold integer
  refine Draw.always_bind (Draw.always_true _) fun fraction _ => Draw.always_pure ?_
  have held := integerAt_between fraction min max
  simp only [Int64.le_iff_toInt_le, Int64.lt_iff_toInt_lt] at held
  -- One comparison puts the bounds in order, and minimum and maximum agree with it.
  simp only [Option.getD_some]
  split at held
  · omega
  · omega

/-- A length is the one that is given, or else one is drawn between the ends. -/
theorem stringLength_cases (min max length : Option Int64) :
    (stringLength min max length).Always fun drawn : Nat =>
      (∃ given, length = some given ∧ Taken given ∧ (drawn : Int) = given.toInt) ∨
      (∀ given, length = some given → ¬ Taken given) ∧
        ∃ lower upper, LengthEnd 1 min lower ∧ LengthEnd 100 max upper ∧
          Min.min lower upper ≤ drawn ∧ drawn ≤ Max.max lower upper := by
  unfold stringLength
  cases kept : length.filter fun given => leastLength ≤ given && given ≤ greatestLength with
  | some given =>
    -- A length that passes the filter is returned without a draw.
    obtain ⟨asked, within⟩ := Option.filter_eq_some_iff.mp kept
    have taken := taken_iff.mpr within
    refine Draw.always_pure (Or.inl ⟨given, asked, taken, ?_⟩)
    have least := taken.1
    rw [Int64.toNatClampNeg]
    omega
  | none =>
    have lowerIs := lengthEnd_lowerLength min
    have upperIs := lengthEnd_upperLength max
    refine Draw.always_bind (integer_between _ _) fun value between =>
      Draw.always_pure (Or.inr ⟨?_, _, _, lowerIs, upperIs, ?_⟩)
    · intro given asked taken
      exact Option.filter_eq_none_iff.mp kept given asked (taken_iff.mp taken)
    · -- Both ends are positive, so nothing is lost when the integer becomes a size.
      have lowerBetween := lowerIs.between (by omega) (by omega)
      have upperBetween := upperIs.between (by omega) (by omega)
      rw [Int64.toNatClampNeg]
      omega

/-- A drawn length stays within the limits, whatever is asked for. -/
theorem stringLength_between (min max length : Option Int64) :
    (stringLength min max length).Always fun drawn : Nat => 1 ≤ drawn ∧ drawn ≤ 100 := by
  intro source
  rcases stringLength_cases min max length source with
    ⟨given, -, ⟨least, greatest⟩, exact⟩ | ⟨-, lower, upper, lowerIs, upperIs, low, high⟩
  · omega
  · -- Whatever lies between two lengths within the limits is within them too.
    have lowerBetween := lowerIs.between (by omega) (by omega)
    have upperBetween := upperIs.between (by omega) (by omega)
    omega

/-- Where no length is taken, one is drawn between the ends of the bounds. -/
theorem stringLength_ends {min max length : Option Int64}
    (free : ∀ given, length = some given → ¬ Taken given) :
    (stringLength min max length).Always fun drawn : Nat =>
      ∃ lower upper, LengthEnd 1 min lower ∧ LengthEnd 100 max upper ∧
        Min.min lower upper ≤ drawn ∧ drawn ≤ Max.max lower upper := by
  intro source
  rcases stringLength_cases min max length source with ⟨given, asked, taken, -⟩ | ⟨-, ends⟩
  · exact absurd taken (free given asked)
  · exact ends

/-- Where no length is taken, a window within the limits is the window of the draw. -/
theorem stringLength_window {least greatest : Int64} {length : Option Int64}
    (free : ∀ given, length = some given → ¬ Taken given) (leastTaken : Taken least)
    (greatestTaken : Taken greatest) (ordered : least.toInt ≤ greatest.toInt) :
    (stringLength (some least) (some greatest) length).Always fun drawn : Nat =>
      least.toInt ≤ drawn ∧ drawn ≤ greatest.toInt := by
  intro source
  obtain ⟨lower, upper, lowerIs, upperIs, low, high⟩ := stringLength_ends free source
  -- Both bounds are their own ends, and they are in order.
  have lowerSame := lowerIs.eq_of_taken leastTaken
  have upperSame := upperIs.eq_of_taken greatestTaken
  omega

/-- Where no length is taken and the greatest one is replaced, the least length is a floor. -/
theorem stringLength_floor {least : Int64} {max length : Option Int64}
    (free : ∀ given, length = some given → ¬ Taken given) (leastTaken : Taken least)
    (replaced : ∀ greatest, max = some greatest → greatest = 0 ∨ 100 < greatest.toInt) :
    (stringLength (some least) max length).Always fun drawn : Nat => least.toInt ≤ drawn := by
  intro source
  obtain ⟨lower, upper, lowerIs, upperIs, low, -⟩ := stringLength_ends free source
  -- The upper end is the limit then, and the least length does not lie above it.
  have lowerSame := lowerIs.eq_of_taken leastTaken
  have upperLimit := upperIs.eq_of_replaced replaced
  have within := leastTaken.2
  omega

/-- Characters are ASCII letters and digits. -/
theorem isAlphanum_character : character.Always (·.isAlphanum = true) := by
  have all : alphabet.all Char.isAlphanum = true := rfl
  refine Draw.always_bind (Draw.always_true _) fun position _ => Draw.always_pure ?_
  -- A position is one of the alphabet, and the default is a letter too.
  rw [List.getD_eq_getElem?_getD]
  cases found : alphabet[position.toNatClampNeg]? with
  | none => rfl
  | some c => exact List.all_eq_true.mp all c (List.mem_of_getElem? found)

/-- A string has the length that is asked for and is made of ASCII letters and digits. -/
theorem string_always (length : Nat) :
    (string length).Always fun text =>
      text.length = length ∧ ∀ c ∈ text.toList, c.isAlphanum = true := by
  refine Draw.always_bind (Draw.always_times isAlphanum_character length) fun characters each =>
    Draw.always_pure ?_
  rw [String.length_ofList, String.toList_ofList]
  exact each

/--
Strings keep to their lengths, and lengths to the policy for the three options about them.

A length within the limits is taken as it is. Otherwise one is drawn between the two ends that the
bounds stand for, whichever of them is the lower one. So every length lies between one and a
hundred, a window within these limits is kept, and a least length is a floor where no greatest one
counts.
-/
theorem strings_keep_length_policy (source : Source) :
    (∀ min max length : Option Int64,
      let drawn := ((stringLength min max length).run source).1
      (1 ≤ drawn ∧ drawn ≤ 100) ∧
      (∀ given, length = some given → Taken given → (drawn : Int) = given.toInt) ∧
      ((∀ given, length = some given → ¬ Taken given) →
        (∃ lower upper, LengthEnd 1 min lower ∧ LengthEnd 100 max upper ∧
          Min.min lower upper ≤ drawn ∧ drawn ≤ Max.max lower upper) ∧
        (∀ least greatest, min = some least → max = some greatest → 1 ≤ least.toInt →
          least.toInt ≤ greatest.toInt → greatest.toInt ≤ 100 →
            least.toInt ≤ drawn ∧ drawn ≤ greatest.toInt) ∧
        ∀ least, min = some least → 1 ≤ least.toInt → least.toInt ≤ 100 →
          (∀ greatest, max = some greatest → greatest = 0 ∨ 100 < greatest.toInt) →
            least.toInt ≤ drawn)) ∧
    ∀ options : Options, ∃ text,
      ((generateString options).run source).1 = .string text ∧
        text.length = ((stringLength (options.integer? "min" 0) (options.integer? "max" 1)
          (options.integer? "len" 2)).run source).1 ∧
        ∀ c ∈ text.toList, c.isAlphanum = true := by
  refine ⟨fun min max length => ⟨stringLength_between min max length source, ?_, fun free =>
    ⟨stringLength_ends free source, ?_, ?_⟩⟩, fun options => ?_⟩
  · intro given asked taken
    rcases stringLength_cases min max length source with ⟨other, found, -, exact⟩ | ⟨free, -⟩
    · rw [asked] at found
      rw [Option.some.inj found]
      exact exact
    · exact absurd taken (free given asked)
  · rintro least greatest rfl rfl low ordered high
    exact stringLength_window free ⟨low, by omega⟩ ⟨by omega, high⟩ ordered source
  · rintro least rfl low high replaced
    exact stringLength_floor free ⟨low, high⟩ replaced source
  · -- The characters are drawn behind the length, with as many words as it says.
    have kept := string_always ((stringLength (options.integer? "min" 0)
      (options.integer? "max" 1) (options.integer? "len" 2)).run source).1
    exact ⟨_, rfl, kept _⟩

/-- A window that is the wrong way round is turned, and a length beyond the limit is passed over. -/
theorem turned_window_drawn_from :
    ¬ Taken 101 ∧ Taken 33 ∧
      10 ≤ ((stringLength (some 60) (some 10) (some 101)).run (.ofTape #[] 0)).1 ∧
      ((stringLength (some 60) (some 10) (some 101)).run (.ofTape #[] 0)).1 ≤ 60 ∧
      ((stringLength (some 60) (some 10) (some 33)).run (.ofTape #[] 0)).1 = 33 ∧
      10 ≤ ((stringLength (some 10) (some 60) (some 101)).run (.ofTape #[] 0)).1 ∧
      90 ≤ ((stringLength (some 90) (some 0) (some 101)).run (.ofTape #[] 0)).1 := by
  obtain ⟨lengths, -⟩ := strings_keep_length_policy (.ofTape #[] 0)
  have beyond : ¬ Taken 101 := by decide
  have within : Taken 33 := by decide
  have passed : ∀ given, some 101 = some given → ¬ Taken given := by
    intro given asked
    cases asked
    exact beyond
  have exact := (lengths (some 60) (some 10) (some 33)).2.1 33 rfl within
  obtain ⟨lower, upper, lowerIs, upperIs, low, high⟩ :=
    ((lengths (some 60) (some 10) (some 101)).2.2 passed).1
  -- The ends of the turned bounds are the bounds themselves.
  have lowerSame : lower = 60 := lowerIs.eq_of_taken (by decide)
  have upperSame : upper = 10 := upperIs.eq_of_taken (by decide)
  have given : (33 : Int64).toInt = 33 := rfl
  -- The same bounds in order are a window, and a greatest length of zero counts for none.
  have window := (((lengths (some 10) (some 60) (some 101)).2.2 passed).2.1 10 60 rfl rfl
    (by decide) (by decide) (by decide)).1
  have floor := ((lengths (some 90) (some 0) (some 101)).2.2 passed).2.2 90 rfl (by decide)
    (by decide) fun greatest asked => Or.inl (Option.some.inj asked).symm
  have least : (10 : Int64).toInt = 10 := rfl
  have greatest : (90 : Int64).toInt = 90 := rfl
  exact ⟨beyond, within, by omega, by omega, by omega, by omega, by omega⟩

end Placeholder.Generator

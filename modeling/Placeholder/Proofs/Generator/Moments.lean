import Placeholder.Generator.Moment
import Placeholder.Proofs.Binary64.Nearest
import Placeholder.Proofs.Generator.Floats
import Placeholder.Proofs.Integer

/-! Instants are drawn from the epoch on and before now, since no product is rounded up to now. -/

namespace Placeholder

section Shares

variable {steps span places : Nat}

/-- A share of a whole number is rounded to no more than the number. -/
theorem nearestUnits_share_le (below : steps < 2 ^ 53) (short : span < 2 ^ 53)
    (few : places ≤ 1992) :
    nearestUnits (steps * 2 ^ places * span) 1 ≤ span * 2 ^ (53 + places) := by
  -- The number is on its own grid, so that rounding does not pass it.
  have fits := representable_scaled short (show 53 + places ≤ 2045 by omega)
  refine nearestUnits_le Nat.one_pos (Nat.dvd_of_mod_eq_zero fits.2) ?_
  calc steps * 2 ^ places * span
    _ ≤ 2 ^ 53 * 2 ^ places * span :=
      Nat.mul_le_mul_right _ (Nat.mul_le_mul_right _ (Nat.le_of_lt below))
    _ = span * 2 ^ (53 + places) * 1 := by ring

/-- A share of a power of two is not rounded up to the power. -/
theorem nearestUnits_share_lt_power {height : Nat} (below : steps < 2 ^ 53)
    (few : places + height ≤ 2045) :
    nearestUnits (steps * 2 ^ places * 2 ^ height) 1 < 2 ^ height * 2 ^ (53 + places) := by
  -- The number in front of the power has 53 bits that are all set, and no share is above it.
  have fits := representable_scaled (show 2 ^ 53 - 1 < 2 ^ 53 by decide) few
  have grid := Nat.dvd_of_mod_eq_zero fits.2
  rw [Nat.pow_eq] at grid
  have share : steps * 2 ^ places * 2 ^ height ≤ (2 ^ 53 - 1) * 2 ^ (places + height) * 1 := by
    rw [Nat.mul_one, Nat.mul_assoc, ← Nat.pow_add]
    exact Nat.mul_le_mul_right _ (Nat.le_sub_one_of_lt below)
  calc nearestUnits (steps * 2 ^ places * 2 ^ height) 1
    _ ≤ (2 ^ 53 - 1) * 2 ^ (places + height) := nearestUnits_le Nat.one_pos grid share
    _ < 2 ^ 53 * 2 ^ (places + height) :=
      Nat.mul_lt_mul_of_pos_right (by decide) (Nat.two_pow_pos _)
    _ = 2 ^ height * 2 ^ (53 + places) := by ring

/-- A share of a number between two powers of two is not rounded up to the number. -/
theorem nearestUnits_share_lt_between (below : steps < 2 ^ 53) (short : span < 2 ^ 53)
    (few : places ≤ 1992) (beyond : 2 ^ span.log2 < span) :
    nearestUnits (steps * 2 ^ places * span) 1 < span * 2 ^ (53 + places) := by
  have fits := representable_scaled short (show 53 + places ≤ 2045 by omega)
  refine nearestUnits_lt (Nat.dvd_of_mod_eq_zero fits.2) ?_
  -- A share is short of the number by a step at least, which is more than half of the grid there.
  have shortage : steps * 2 ^ places * span + 2 ^ places * span ≤ span * 2 ^ (53 + places) := by
    calc steps * 2 ^ places * span + 2 ^ places * span
      _ = (steps + 1) * (2 ^ places * span) := by ring
      _ ≤ 2 ^ 53 * (2 ^ places * span) := Nat.mul_le_mul_right _ below
      _ = span * 2 ^ (53 + places) := by ring
  have grid : spacing (span * 2 ^ (53 + places)) < 2 * (2 ^ places * span) := by
    have high : span * 2 ^ (53 + places) < 2 ^ (span.log2 + 1 + (53 + places)) := by
      rw [Nat.pow_add 2 (span.log2 + 1)]
      exact Nat.mul_lt_mul_of_pos_right Nat.lt_log2_self (Nat.two_pow_pos _)
    have positive : 0 < span * 2 ^ (53 + places) :=
      Nat.mul_pos (Nat.zero_lt_of_lt beyond) (Nat.two_pow_pos _)
    -- The leading bit decides the grid, and below it the number has at most 53 bits.
    have leading := (Nat.log2_lt (Nat.ne_of_gt positive)).mpr high
    calc spacing (span * 2 ^ (53 + places))
      _ ≤ 2 ^ (span.log2 + places + 1) := Nat.pow_le_pow_right (by decide) (by omega)
      _ = 2 * (2 ^ places * 2 ^ span.log2) := by ring
      _ < 2 * (2 ^ places * span) :=
        Nat.mul_lt_mul_of_pos_left (Nat.mul_lt_mul_of_pos_left beyond (Nat.two_pow_pos _))
          (by decide)
  omega

/-- No share of a positive whole number is rounded up to the number. -/
theorem nearestUnits_share_lt (below : steps < 2 ^ 53) (short : span < 2 ^ 53)
    (few : places ≤ 1992) (positive : 0 < span) :
    nearestUnits (steps * 2 ^ places * span) 1 < span * 2 ^ (53 + places) := by
  -- Right below a power of two the grid is finer, so that powers are looked at apart.
  have filled : span ≠ 0 := Nat.ne_of_gt positive
  rcases Nat.eq_or_lt_of_le (Nat.log2_self_le filled) with power | beyond
  · have leading := (Nat.log2_lt filled).mpr short
    have strict := @nearestUnits_share_lt_power steps places span.log2 below (by omega)
    rwa [power] at strict
  · exact nearestUnits_share_lt_between below short few beyond

end Shares

namespace Generator

/-- Fractions are counted in steps of which one has `2⁵³`, and a step is a power of two itself. -/
theorem exists_steps : ∃ places ≤ 1992, unitsPerOne = 2 ^ (53 + places) ∧
    ∀ word, ∃ fits, Draw.fractionOf word =
      .finite false ((word >>> 11).toNat * 2 ^ places) fits := by
  have counted := Draw.exists_fractionOf
  have low : 1021 ≤ 1992 := by decide
  have height : 1074 = 53 + 1021 := rfl
  unfold unitsPerOne
  -- Nothing but these two facts is needed of the powers, which are too large to be computed with.
  generalize 1074 = whole at height ⊢
  generalize 1021 = places at counted low height
  rw [height]
  exact ⟨places, low, Nat.pow_eq, counted⟩

/-- The share that a fraction has of a whole number is rounded to less than the number. -/
theorem exists_share (word : UInt64) {span : Nat} (short : span < 2 ^ 53) :
    ∃ units fits, Draw.fractionOf word * Binary64.ofInt span = .finite false units fits ∧
      units ≤ span * unitsPerOne ∧ (0 < span → units < span * unitsPerOne) := by
  -- Both factors are floats themselves, so that the product is all that is rounded.
  have steps := Draw.steps_lt word
  have wholeFits := @representable_whole span 0 short (Nat.zero_le _)
  rw [Nat.pow_zero, Nat.mul_one] at wholeFits
  obtain ⟨places, few, one, counted⟩ := exists_steps
  obtain ⟨fits, fraction⟩ := counted word
  have most := nearestUnits_share_le steps short few
  have strict := nearestUnits_share_lt steps short few
  rw [← one] at most strict
  have shareFits : Representable (nearestUnits ((word >>> 11).toNat * 2 ^ places * span) 1) :=
    ⟨Nat.lt_of_le_of_lt most wholeFits.1,
      Nat.mod_eq_zero_of_dvd (spacing_dvd_nearestUnits Nat.one_pos)⟩
  -- The units of one are in the exact product twice and are divided out once.
  have product := nearestUnits_mul_right ((word >>> 11).toNat * 2 ^ places * span) 1
    Binary64.unitsPerOne_pos
  rw [Nat.mul_assoc, Nat.one_mul] at product
  refine ⟨_, shareFits, ?_, most, strict⟩
  rw [fraction, Binary64.ofInt_of_representable wholeFits, Binary64.mul_finite]
  exact Binary64.ofRatio_of_nearest shareFits product false

/-- A fraction picks a millisecond from that of the epoch on, and before that of a later now. -/
theorem millisAt_bounds (word : UInt64) {now : Int} (short : now < 2 ^ 53) :
    0 ≤ millisAt (Draw.fractionOf word) now ∧ millisAt (Draw.fractionOf word) now ≤ max now 0 ∧
      (0 < now → millisAt (Draw.fractionOf word) now < now) := by
  obtain ⟨units, fits, product, most, strict⟩ :=
    exists_share word (show now.toNat < 2 ^ 53 by omega)
  -- The part behind the point is cut off, which keeps both bounds.
  have whole : units / unitsPerOne ≤ now.toNat := Nat.div_le_of_le_mul (Nat.mul_comm _ _ ▸ most)
  have below : 0 < now.toNat → units / unitsPerOne < now.toNat := fun positive =>
    (Nat.div_lt_iff_lt_mul Binary64.unitsPerOne_pos).mpr (strict positive)
  rw [millisAt, ← Int.ofNat_toNat, product, Binary64.toInt64]
  generalize units / unitsPerOne = millis at *
  -- Saturation changes nothing, since machine integers have more than 53 bits.
  rw [Binary64.signedUnits, Integer.toInt_saturate, Int64.toInt_minValue, Int64.toInt_maxValue]
  simp only [Bool.false_eq_true, if_false]
  omega

end Generator

namespace Calendar.Instant

/-- Instants are compared by their seconds, and within one second by the part of it. -/
instance : LE Instant :=
  ⟨fun earlier later => earlier.seconds < later.seconds ∨
    earlier.seconds = later.seconds ∧ earlier.nanos ≤ later.nanos⟩

instance : LT Instant :=
  ⟨fun earlier later => earlier.seconds < later.seconds ∨
    earlier.seconds = later.seconds ∧ earlier.nanos < later.nanos⟩

instance : DecidableLE Instant :=
  fun _ _ => inferInstanceAs (Decidable (_ ∨ _))

instance : DecidableLT Instant :=
  fun _ _ => inferInstanceAs (Decidable (_ ∨ _))

/-- An earlier second counts first, and then the nanoseconds. -/
theorem le_iff {earlier later : Instant} :
    earlier ≤ later ↔ earlier.seconds < later.seconds ∨
      earlier.seconds = later.seconds ∧ earlier.nanos ≤ later.nanos :=
  Iff.rfl

/-- An earlier second counts first, and then fewer nanoseconds. -/
theorem lt_iff {earlier later : Instant} :
    earlier < later ↔ earlier.seconds < later.seconds ∨
      earlier.seconds = later.seconds ∧ earlier.nanos < later.nanos :=
  Iff.rfl

/-- An instant is dated when its second has a date, and it may lie in a leap second behind it. -/
structure Dated (instant : Instant) : Prop where
  first : firstMillis ≤ instant.seconds * 1000
  last : instant.seconds * 1000 ≤ lastMillis
  nanos : instant.nanos < 2000000000

/-- The same instant, or in a leap second the part of the next one with the same millisecond. -/
def settled (instant : Instant) : Instant :=
  ⟨instant.seconds + instant.nanos / 1000000000, instant.nanos % 1000000000⟩

/-- An instant lies between the epoch and now, or is the epoch when now lies before it. -/
structure InReach (now instant : Instant) : Prop where
  fromEpoch : epoch ≤ instant
  toNow : epoch ≤ now → instant ≤ now
  early : now < epoch → instant = epoch
  /-- Behind the first millisecond not even the millisecond of now is reached. -/
  before : epoch.millis < now.millis → instant.millis < now.millis

/-- Outside of leap seconds the millisecond of a dated instant has a date too. -/
theorem Dated.millis_le {instant : Instant} (dated : instant.Dated)
    (regular : instant.nanos < 1000000000) : instant.millis ≤ lastMillis := by
  have last := dated.last
  unfold lastMillis at *
  unfold millis
  omega

/-- Outside of leap seconds an instant is settled already. -/
theorem settled_of_regular {instant : Instant} (regular : instant.nanos < 1000000000) :
    instant.settled = instant := by
  have none : (instant.nanos : Int) / 1000000000 = 0 := by omega
  rw [settled, none, Int.add_zero, Nat.mod_eq_of_lt regular]

/-- The millisecond does not tell a leap second from the second behind it. -/
theorem millis_settled (instant : Instant) : instant.settled.millis = instant.millis := by
  unfold millis settled
  dsimp only
  omega

/-- An instant is in reach when its millisecond lies between those of the epoch and of now. -/
theorem inReach_of_ofMillis? {now instant : Instant} {millis : Int}
    (regular : now.nanos < 1000000000) (given : ofMillis? millis = some instant)
    (nonneg : 0 ≤ millis) (most : millis ≤ max now.millis 0)
    (strict : 0 < now.millis → millis < now.millis) : InReach now instant := by
  have start : epoch.seconds = 0 ∧ epoch.nanos = 0 := ⟨rfl, rfl⟩
  unfold ofMillis? at given
  split at given
  · cases given
    unfold Instant.millis at most strict
    refine ⟨?_, ?_, ?_, ?_⟩
    · rw [le_iff]
      dsimp only
      omega
    · -- What is cut off from now is no millisecond, so that the whole ones can be compared.
      rw [le_iff, le_iff]
      dsimp only
      omega
    · -- No millisecond is left but that of the epoch.
      rw [lt_iff]
      intro early
      have none : millis = 0 := by omega
      rw [none]
      rfl
    · unfold Instant.millis
      dsimp only
      omega
  · cases given

/-- The epoch is in reach of every now. -/
theorem epoch_inReach (now : Instant) : InReach now epoch :=
  ⟨le_iff.mpr (Or.inr ⟨rfl, Nat.le_refl _⟩), id, fun _ => rfl, id⟩

end Calendar.Instant

namespace Generator

open Calendar (Instant)

/-- The millisecond that the next word picks before a now. -/
def pickedBefore (now : Instant) (source : Source) : Int :=
  millisAt (Draw.fractionOf (source.word source.drawn)) now.millis

/-- The instant of the picked millisecond is drawn, or the epoch when it has no date. -/
theorem run_instantBefore (now : Instant) (source : Source) :
    ((instantBefore now.millis).run source).1 =
      (Instant.ofMillis? (pickedBefore now source)).getD Instant.epoch := by
  have word : (Draw.word.run source).1 = source.word source.drawn := rfl
  rw [instantBefore, Draw.fraction, bind_pure_comp, bind_pure_comp, Draw.run_map, Draw.run_map,
    word, pickedBefore]

/-- A picked millisecond is not in front of the epoch, and in front of that of a later now. -/
theorem pickedBefore_bounds {now : Instant} (dated : now.Dated) (source : Source) :
    0 ≤ pickedBefore now source ∧ pickedBefore now source ≤ max now.millis 0 ∧
      (0 < now.millis → pickedBefore now source < now.millis) := by
  -- Even the last leap second is far below the whole numbers that floats do not hold.
  have short : now.millis < 2 ^ 53 := by
    have last := dated.last
    have nanos := dated.nanos
    unfold Instant.lastMillis at last
    unfold Instant.millis
    omega
  exact millisAt_bounds _ short

/--
Instants are drawn between the epoch and now, whatever the next word is.

The millisecond of now is multiplied by a fraction below one. The exact product is rounded once, and
even the largest fraction is not rounded up to the whole of it. So what is picked has a date, and
the epoch does not have to stand in for it. A now in front of the epoch leaves nothing else.
In a leap second all this holds of the settled now, with which it shares its millisecond. Only the
last leap second of all has milliseconds without a date.
-/
theorem instants_drawn_in_reach {now : Instant} (dated : now.Dated) (source : Source) :
    ∃ drawn, ((instantBefore now.millis).run source).1 = drawn ∧
      (now.nanos < 1000000000 → Instant.InReach now drawn ∧
        Instant.ofMillis? (pickedBefore now source) = some drawn) ∧
      Instant.InReach now.settled drawn ∧
      (Instant.ofMillis? (pickedBefore now source) = some drawn ∨
        drawn = Instant.epoch ∧ Instant.lastMillis < now.millis) := by
  obtain ⟨nonneg, most, strict⟩ := pickedBefore_bounds dated source
  rw [run_instantBefore]
  generalize pickedBefore now source = picked at *
  by_cases early : picked ≤ Instant.lastMillis
  · have first : Instant.firstMillis ≤ picked := Int.le_trans (by decide) nonneg
    have given : Instant.ofMillis? picked =
        some ⟨picked / 1000, (picked % 1000).toNat * 1000000⟩ := if_pos ⟨first, early⟩
    -- The settled now has the same millisecond, and no leap second is left in it.
    rw [← Instant.millis_settled now] at most strict
    have reach := Instant.inReach_of_ofMillis? (Nat.mod_lt _ (by decide)) given nonneg most strict
    refine ⟨_, by rw [given, Option.getD_some], fun regular => ⟨?_, given⟩, reach, Or.inl given⟩
    rwa [Instant.settled_of_regular regular] at reach
  · have missing : Instant.ofMillis? picked = none := if_neg fun between => early between.2
    have past : Instant.lastMillis < now.millis := by
      have positive : 0 < Instant.lastMillis := by decide
      omega
    rw [missing]
    refine ⟨_, rfl, fun regular => ?_, Instant.epoch_inReach _, Or.inr ⟨rfl, past⟩⟩
    exact absurd (dated.millis_le regular) (Int.not_le.mpr past)

/-- The last nanosecond that has a date. -/
def latest : Instant :=
  ⟨8210266876799, 999999999⟩

/-- The largest fraction of the latest now stays in front of it. -/
theorem latest_out_of_reach :
    latest.Dated ∧ latest.nanos < 1000000000 ∧
      ∃ drawn, ((instantBefore latest.millis).run (.ofTape #[18446744073709551615] 0)).1 = drawn ∧
        Instant.InReach latest drawn ∧ Instant.InReach latest.settled drawn ∧
        Instant.ofMillis? (pickedBefore latest (.ofTape #[18446744073709551615] 0)) =
          some drawn := by
  have dated : latest.Dated := ⟨by decide, by decide, by decide⟩
  have regular : latest.nanos < 1000000000 := by decide
  obtain ⟨drawn, run, outside, settled, -⟩ :=
    instants_drawn_in_reach dated (.ofTape #[18446744073709551615] 0)
  exact ⟨dated, regular, drawn, run, (outside regular).1, settled, (outside regular).2⟩

/-- The middle of the leap second right in front of the epoch. -/
def leapBeforeEpoch : Instant :=
  ⟨-1, 1500000000⟩

/-- The last nanosecond of the leap second behind the last second that has a date. -/
def lastLeap : Instant :=
  ⟨8210266876799, 1999999999⟩

/-- In a leap second what is drawn may lie behind now, and past the last date. -/
theorem leap_seconds_drawn_past :
    (leapBeforeEpoch.Dated ∧ leapBeforeEpoch < Instant.epoch ∧
      ((instantBefore leapBeforeEpoch.millis).run (.ofTape #[9223372036854775808] 0)).1 =
        ⟨0, 250000000⟩ ∧
      (⟨0, 250000000⟩ : Instant) ≠ Instant.epoch ∧ leapBeforeEpoch < ⟨0, 250000000⟩) ∧
    lastLeap.Dated ∧
      Instant.ofMillis? (pickedBefore lastLeap (.ofTape #[18446744073709551615] 0)) = none := by
  refine ⟨⟨⟨by decide, by decide, by decide⟩, ?_⟩, ⟨by decide, by decide, by decide⟩, ?_⟩
  · decide +kernel
  · decide +kernel

end Generator

end Placeholder

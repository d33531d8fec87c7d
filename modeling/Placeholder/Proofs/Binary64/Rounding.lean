import Mathlib.Tactic.Ring
import Placeholder.Binary64.Rounding

/-! Rounding keeps the order of ratios, and ends on the grid of the magnitude that it gives. -/

namespace Placeholder

/-- A number is below each power of two beyond its leading bit. -/
theorem lt_two_pow_of_log2_lt {units height : Nat} (beyond : units.log2 < height) :
    units < 2 ^ height := by
  by_cases none : units = 0
  · rw [none]
    exact Nat.two_pow_pos height
  · exact (Nat.log2_lt none).mp beyond

/-- Larger numbers have leading bits that are no lower. -/
theorem log2_mono {low high : Nat} (order : low ≤ high) : low.log2 ≤ high.log2 := by
  by_cases none : low = 0
  · rw [none]
    exact Nat.zero_le _
  · apply Nat.le_of_not_lt
    intro beyond
    have above := lt_two_pow_of_log2_lt beyond
    have below := Nat.log2_self_le none
    omega

/-- Coarser grids are part of finer ones. -/
theorem spacing_dvd {low high : Nat} (order : low.log2 ≤ high.log2) : spacing low ∣ spacing high :=
  Nat.pow_dvd_pow 2 (Nat.sub_le_sub_right order 52)

/-- Distances are positive. -/
theorem spacing_pos (units : Nat) : 0 < spacing units :=
  Nat.two_pow_pos _

/-- A power of two is on its own grid. -/
theorem spacing_two_pow_dvd (height : Nat) : spacing (2 ^ height) ∣ 2 ^ height := by
  rw [spacing, Nat.log2_two_pow]
  exact Nat.pow_dvd_pow 2 (Nat.sub_le height 52)

/-- Rounding goes up only where something would be cut off. -/
theorem roundHalfEven_cases {numerator denominator : Nat} (positive : 0 < denominator) :
    roundHalfEven numerator denominator = numerator / denominator ∨
      roundHalfEven numerator denominator = numerator / denominator + 1 ∧
        numerator % denominator ≠ 0 := by
  unfold roundHalfEven
  dsimp only
  split
  · exact Or.inl rfl
  · split
    · exact Or.inr ⟨rfl, by omega⟩
    -- At a tie the parity of the quotient is what is added to it.
    · rcases Nat.mod_two_eq_zero_or_one (numerator / denominator) with even | odd
      · rw [even]
        exact Or.inl rfl
      · rw [odd]
        exact Or.inr ⟨rfl, by omega⟩

/-- Whole numbers around larger ratios are no smaller. -/
theorem roundHalfEven_mono {small large denominator : Nat} (positive : 0 < denominator)
    (order : small ≤ large) :
    roundHalfEven small denominator ≤ roundHalfEven large denominator := by
  have floors : small / denominator ≤ large / denominator := Nat.div_le_div_right order
  rcases Nat.lt_or_eq_of_le floors with apart | same
  · -- The smaller one goes up by no more than the distance of the two.
    rcases @roundHalfEven_cases small _ positive with down | ⟨up, -⟩
    · rcases @roundHalfEven_cases large _ positive with largeDown | ⟨largeUp, -⟩
      · omega
      · omega
    · rcases @roundHalfEven_cases large _ positive with largeDown | ⟨largeUp, -⟩
      · omega
      · omega
  · -- Between the same two neighbours the larger remainder decides for the larger one.
    have smallWhole := Nat.div_add_mod small denominator
    have largeWhole := Nat.div_add_mod large denominator
    have remainders : small % denominator ≤ large % denominator := by
      rw [same] at smallWhole
      omega
    unfold roundHalfEven
    dsimp only
    rw [same]
    by_cases below : 2 * (small % denominator) < denominator
    · rw [if_pos below]
      split
      · exact Nat.le_refl _
      · split
        · exact Nat.le_succ _
        · exact Nat.le_add_right _ _
    · have largeAbove : ¬ 2 * (large % denominator) < denominator := by omega
      rw [if_neg below, if_neg largeAbove]
      by_cases above : denominator < 2 * (small % denominator)
      · have alsoAbove : denominator < 2 * (large % denominator) := by omega
        rw [if_pos above, if_pos alsoAbove]
      · rw [if_neg above]
        split
        · omega
        · exact Nat.le_refl _

/-- A point of the grid around a ratio that is not above it is not above what it rounds to. -/
theorem multiple_le_nearestUnits {numerator denominator point : Nat} (positive : 0 < denominator)
    (grid : spacing (numerator / denominator) ∣ point) (above : point * denominator ≤ numerator) :
    point ≤ nearestUnits numerator denominator := by
  obtain ⟨count, rfl⟩ := grid
  have apartPoints := spacing_pos (numerator / denominator)
  rw [nearestUnits]
  generalize spacing (numerator / denominator) = step at *
  have wide : 0 < denominator * step := Nat.mul_pos positive apartPoints
  -- As many steps as there are up to the point are cut off from the ratio.
  have floor : count ≤ numerator / (denominator * step) := by
    rw [Nat.le_div_iff_mul_le wide]
    calc count * (denominator * step) = step * count * denominator := by ring
      _ ≤ numerator := above
  have rounded :
      numerator / (denominator * step) ≤ roundHalfEven numerator (denominator * step) := by
    rcases @roundHalfEven_cases numerator _ wide with down | ⟨up, -⟩
    · exact Nat.le_of_eq down.symm
    · omega
  rw [Nat.mul_comm step count]
  exact Nat.mul_le_mul_right step (Nat.le_trans floor rounded)

/-- A magnitude on its own grid that is not above a ratio is not above what it rounds to. -/
theorem le_nearestUnits {numerator denominator units : Nat} (positive : 0 < denominator)
    (grid : spacing units ∣ units) (above : units * denominator ≤ numerator) :
    units ≤ nearestUnits numerator denominator := by
  have floor : units ≤ numerator / denominator := (Nat.le_div_iff_mul_le positive).mpr above
  rcases Nat.lt_or_eq_of_le (log2_mono floor) with lower | same
  · -- The power of two in between is on the grid around the ratio.
    have filled : numerator / denominator ≠ 0 := by
      intro none
      rw [none] at lower
      exact absurd lower (Nat.not_lt_zero _)
    have power : 2 ^ (numerator / denominator).log2 ≤ numerator / denominator :=
      Nat.log2_self_le filled
    have between := lt_two_pow_of_log2_lt lower
    refine Nat.le_trans (Nat.le_of_lt between) (multiple_le_nearestUnits positive ?_ ?_)
    · exact Nat.pow_dvd_pow 2 (Nat.sub_le _ 52)
    · exact (Nat.le_div_iff_mul_le positive).mp power
  · refine multiple_le_nearestUnits positive ?_ above
    rw [spacing, ← same]
    exact grid

/-- A magnitude on its own grid that is not below a ratio is not below what it rounds to. -/
theorem nearestUnits_le {numerator denominator units : Nat} (positive : 0 < denominator)
    (grid : spacing units ∣ units) (below : numerator ≤ units * denominator) :
    nearestUnits numerator denominator ≤ units := by
  have floor : numerator / denominator ≤ units := by
    rw [Nat.mul_comm] at below
    exact Nat.div_le_of_le_mul below
  obtain ⟨count, rfl⟩ := Nat.dvd_trans (spacing_dvd (log2_mono floor)) grid
  have apartPoints := spacing_pos (numerator / denominator)
  rw [nearestUnits]
  generalize spacing (numerator / denominator) = step at *
  have wide : 0 < denominator * step := Nat.mul_pos positive apartPoints
  have bound : numerator ≤ denominator * step * count := by
    calc numerator ≤ step * count * denominator := below
      _ = denominator * step * count := by ring
  have rounded : roundHalfEven numerator (denominator * step) ≤ count := by
    rcases @roundHalfEven_cases numerator _ wide with down | ⟨up, cut⟩
    · rw [down]
      exact Nat.div_le_of_le_mul bound
    · -- What is cut off keeps the ratio from the magnitude, so there is room for another step.
      have apart : numerator ≠ denominator * step * count := by
        rintro rfl
        exact cut (Nat.mul_mod_right _ _)
      rw [up]
      exact (Nat.div_lt_iff_lt_mul wide).mpr (by
        rw [Nat.mul_comm]
        omega)
  rw [Nat.mul_comm step count]
  exact Nat.mul_le_mul_right step rounded

/-- Larger ratios are rounded to magnitudes that are no smaller. -/
theorem nearestUnits_mono {small large denominator : Nat} (positive : 0 < denominator)
    (order : small ≤ large) : nearestUnits small denominator ≤ nearestUnits large denominator := by
  have floors : small / denominator ≤ large / denominator := Nat.div_le_div_right order
  rcases Nat.lt_or_eq_of_le (log2_mono floors) with lower | same
  · -- A power of two between the two ratios is passed by neither.
    have filled : large / denominator ≠ 0 := by
      intro none
      rw [none] at lower
      exact absurd lower (Nat.not_lt_zero _)
    have power := (Nat.le_div_iff_mul_le positive).mp (Nat.log2_self_le filled)
    have bound := (Nat.div_lt_iff_lt_mul positive).mp (lt_two_pow_of_log2_lt lower)
    exact Nat.le_trans (nearestUnits_le positive (spacing_two_pow_dvd _) (Nat.le_of_lt bound))
      (le_nearestUnits positive (spacing_two_pow_dvd _) power)
  · have step : spacing (small / denominator) = spacing (large / denominator) := by
      rw [spacing, spacing, same]
    rw [nearestUnits, nearestUnits]
    rw [step]
    exact Nat.mul_le_mul_right _
      (roundHalfEven_mono (Nat.mul_pos positive (spacing_pos _)) order)

/-- What a ratio is rounded to is on its own grid. -/
theorem spacing_dvd_nearestUnits {numerator denominator : Nat} (positive : 0 < denominator) :
    spacing (nearestUnits numerator denominator) ∣ nearestUnits numerator denominator := by
  have bound : numerator ≤ 2 ^ ((numerator / denominator).log2 + 1) * denominator :=
    Nat.le_of_lt ((Nat.div_lt_iff_lt_mul positive).mp Nat.lt_log2_self)
  have low := nearestUnits_le positive (spacing_two_pow_dvd _) bound
  rcases Nat.lt_or_eq_of_le low with below | top
  · -- The grid around the ratio is no finer than the one of a magnitude in its reach.
    have order : (nearestUnits numerator denominator).log2 ≤ (numerator / denominator).log2 := by
      by_cases none : nearestUnits numerator denominator = 0
      · rw [none]
        exact Nat.zero_le _
      · exact Nat.le_of_lt_succ ((Nat.log2_lt none).mpr below)
    exact Nat.dvd_trans (spacing_dvd order) (Nat.dvd_mul_left _ _)
  · -- The ratio was rounded up to the power of two behind it.
    rw [top]
    exact spacing_two_pow_dvd _

/-- A grid is no wider than the magnitudes on it. -/
theorem spacing_le {units : Nat} (positive : 0 < units) : spacing units ≤ units :=
  Nat.le_trans (Nat.pow_le_pow_right (by decide) (Nat.sub_le units.log2 52))
    (Nat.log2_self_le (Nat.ne_of_gt positive))

/-- A ratio no further than a half from a whole number is rounded to it, if it is even at a tie. -/
theorem roundHalfEven_eq {numerator denominator count : Nat} (positive : 0 < denominator)
    (lower : 2 * (denominator * count) ≤ 2 * numerator + denominator)
    (upper : 2 * numerator ≤ 2 * (denominator * count) + denominator)
    (inside : count % 2 = 0 ∨ 2 * (denominator * count) < 2 * numerator + denominator ∧
      2 * numerator < 2 * (denominator * count) + denominator) :
    roundHalfEven numerator denominator = count := by
  have whole := Nat.div_add_mod numerator denominator
  have rest := Nat.mod_lt numerator positive
  unfold roundHalfEven
  dsimp only
  rcases Nat.lt_trichotomy (numerator / denominator) count with below | same | above
  · -- Only the whole number right below is near enough.
    have next := Nat.mul_le_mul_left denominator (Nat.succ_le_of_lt below)
    rw [Nat.mul_succ] at next
    have close : count = numerator / denominator + 1 := by
      apply Nat.le_antisymm _ below
      apply Nat.le_of_not_lt
      intro further
      have two := Nat.mul_le_mul_left denominator (Nat.succ_le_of_lt further)
      rw [Nat.mul_succ, Nat.mul_succ] at two
      omega
    rw [close, Nat.mul_succ] at lower upper inside
    rw [if_neg (by omega)]
    split
    · exact close.symm
    · omega
  · rw [← same] at lower upper inside ⊢
    split
    · rfl
    · rw [if_neg (by omega)]
      omega
  · have next := Nat.mul_le_mul_left denominator (Nat.succ_le_of_lt above)
    rw [Nat.mul_succ] at next
    omega

/-- A ratio with both parts multiplied by the same number is rounded to the same magnitude. -/
theorem nearestUnits_mul_right (numerator denominator : Nat) {factor : Nat}
    (positive : 0 < factor) :
    nearestUnits (numerator * factor) (denominator * factor) =
      nearestUnits numerator denominator := by
  unfold nearestUnits
  rw [Nat.mul_div_mul_right _ _ positive]
  dsimp only
  congr 1
  generalize spacing (numerator / denominator) = step
  unfold roundHalfEven
  rw [Nat.mul_right_comm, Nat.mul_div_mul_right _ _ positive, Nat.mul_mod_mul_right]
  dsimp only
  rw [← Nat.mul_assoc]
  simp only [Nat.mul_lt_mul_right positive]

/-- The grid of a magnitude goes on up to the next power of two. -/
theorem add_spacing_le {units : Nat} (grid : spacing units ∣ units) {limit : Nat}
    (whole : spacing units ∣ limit) (below : units < limit) : units + spacing units ≤ limit := by
  have apart := Nat.dvd_sub whole grid
  have step := Nat.le_of_dvd (Nat.sub_pos_of_lt below) apart
  omega

/-- Grids are the same between a power of two and the next one. -/
theorem spacing_eq_of_between {units height : Nat} (low : 2 ^ height ≤ units)
    (high : units < 2 ^ (height + 1)) : spacing units = 2 ^ (height - 52) := by
  have filled : units ≠ 0 := Nat.ne_of_gt (Nat.lt_of_lt_of_le (Nat.two_pow_pos height) low)
  rw [spacing, (Nat.log2_eq_iff filled).mpr ⟨low, high⟩, Nat.pow_eq]

/-- On the grid around a ratio the point within half a step is what it is rounded to. -/
theorem nearestUnits_eq_of_spacing {numerator denominator step count : Nat}
    (positive : 0 < denominator)
    (around : spacing (numerator / denominator) = step)
    (lower : 4 * (step * count * denominator) ≤ 4 * numerator + 2 * (step * denominator))
    (upper : 4 * numerator ≤ 4 * (step * count * denominator) + 2 * (step * denominator))
    (inside : count % 2 = 0 ∨
      4 * (step * count * denominator) < 4 * numerator + 2 * (step * denominator) ∧
        4 * numerator < 4 * (step * count * denominator) + 2 * (step * denominator)) :
    nearestUnits numerator denominator = step * count := by
  have wide : 0 < denominator * step := Nat.mul_pos positive (around ▸ spacing_pos _)
  -- In steps of the grid the point is a whole number, and the ratio is rounded to one.
  have point : step * count * denominator = denominator * step * count := by ring
  rw [point, Nat.mul_comm step] at lower upper inside
  have rounded : roundHalfEven numerator (denominator * step) = count := by
    apply roundHalfEven_eq wide
    · omega
    · omega
    · omega
  rw [nearestUnits, around, rounded, Nat.mul_comm]

/-- A magnitude on its own grid is rounded to itself. -/
theorem nearestUnits_one {units : Nat} (grid : spacing units ∣ units) :
    nearestUnits units 1 = units := by
  have same : units * 1 = units := Nat.mul_one units
  exact Nat.le_antisymm (nearestUnits_le Nat.one_pos grid (Nat.le_of_eq same.symm))
    (le_nearestUnits Nat.one_pos grid (Nat.le_of_eq same))

end Placeholder

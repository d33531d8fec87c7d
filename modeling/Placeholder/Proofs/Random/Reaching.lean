import Placeholder.Proofs.Random.Results

/-! Every index below a count is drawn from some words. -/

namespace Placeholder.Draw

/-- The number of parts of a word that the indices below a count share. -/
def indexSize (count : Nat) : Nat :=
  if count < UInt32.size then UInt32.size else UInt64.size

/-- There are enough parts for a count that does not exceed the number of words. -/
theorem le_indexSize {count : Nat} (fits : count ≤ UInt64.size) : count ≤ indexSize count := by
  -- Half a word is taken only for counts below its size.
  unfold indexSize
  split
  · rename_i below
    exact Nat.le_of_lt below
  · exact fits

/-- There are no more parts than words. -/
theorem indexSize_le (count : Nat) : indexSize count ≤ UInt64.size := by
  -- Half a word has fewer parts than a whole one.
  unfold indexSize
  split
  · decide
  · exact Nat.le_refl _

/-- An index is the share of the first word, to which the second one may carry. -/
theorem run_index (count : Nat) (source : Source) :
    ((index count).run source).1 =
      let size := indexSize count
      let product := (source.word source.drawn).toNat % size * count
      let refined := (source.word (source.drawn + 1)).toNat % size * count / size
      if size - count < product % size ∧ size ≤ product % size + refined then product / size + 1
      else product / size := by
  have first : word.run source =
      (source.word source.drawn, { source with drawn := source.drawn + 1 }) := rfl
  unfold index
  rw [StateT.run_bind, first]
  unfold indexSize
  generalize (if count < UInt32.size then UInt32.size else UInt64.size) = size
  dsimp only [Id.run, bind, pure]
  -- The second word is looked at only where the remainder leaves room for a carry.
  by_cases coarse : size - count < (source.word source.drawn).toNat % size * count % size
  · simp only [coarse, true_and, if_true]
    rfl
  · simp only [coarse, false_and, if_false]
    rfl

/-- Each index is the share of some part when there are at least as many parts as indices. -/
theorem exists_scaled_eq {size count position : Nat} (fits : count ≤ size)
    (within : position < count) : ∃ part < size, part * count / size = position := by
  -- The first part that reaches the index passes it by less than one count.
  have whole := Nat.div_add_mod (position * size + (count - 1)) count
  have rest := Nat.mod_lt (position * size + (count - 1)) (Nat.zero_lt_of_lt within)
  generalize (position * size + (count - 1)) / count = part at whole
  have next : (position + 1) * size ≤ count * size := Nat.mul_le_mul_right size within
  rw [Nat.succ_mul] at next
  have small : count * part < count * size := by omega
  refine ⟨part, Nat.lt_of_mul_lt_mul_left small, ?_⟩
  rw [Nat.mul_comm part count]
  apply Nat.div_eq_of_lt_le
  · omega
  · rw [Nat.succ_mul]
    omega

/-- A stream that starts with one word at a position and goes on with zeros. -/
def wordThenZeros (first : UInt64) (drawn place : Nat) : UInt64 :=
  if place = drawn then first else 0

/-- Every index below a count is drawn from some words, wherever the source stands. -/
theorem exists_run_index {count position : Nat} (fits : count ≤ UInt64.size)
    (within : position < count) (drawn : Nat) :
    ∃ words, ((index count).run ⟨words, drawn⟩).1 = position := by
  obtain ⟨part, small, share⟩ := exists_scaled_eq (le_indexSize fits) within
  refine ⟨wordThenZeros (UInt64.ofNat part) drawn, ?_⟩
  have first : (wordThenZeros (UInt64.ofNat part) drawn drawn).toNat = part := by
    rw [wordThenZeros, if_pos rfl]
    exact UInt64.toNat_ofNat_of_lt' (Nat.lt_of_lt_of_le small (indexSize_le count))
  have second : (wordThenZeros (UInt64.ofNat part) drawn (drawn + 1)).toNat = 0 := by
    rw [wordThenZeros, if_neg (Nat.succ_ne_self drawn)]
    rfl
  rw [run_index]
  dsimp only
  rw [first, second, Nat.mod_eq_of_lt small, share, Nat.zero_mod, Nat.zero_mul, Nat.zero_div,
    Nat.add_zero]
  -- A second word of zero does not carry, since a remainder is smaller than what it is left by.
  apply if_neg
  intro carries
  have below := Nat.mod_lt (part * count) (Nat.zero_lt_of_lt small)
  omega

end Placeholder.Draw

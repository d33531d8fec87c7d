import Mathlib.Data.List.Forall2
import Placeholder.Random.Draw

/-! Results of draws, for every source of words. -/

namespace Placeholder.Draw

variable {α β : Type}

/-- A property holds of all results of a draw. -/
def Always (holds : α → Prop) (draw : Draw α) : Prop :=
  ∀ source, holds (draw.run source).1

/-- A value that is returned is the only result. -/
theorem always_pure {holds : α → Prop} {value : α} (held : holds value) :
    Always holds (pure value : Draw α) :=
  fun _ => held

/-- A draw that is followed by another one has the results of the other one. -/
theorem always_bind {between : α → Prop} {holds : β → Prop} {draw : Draw α} {next : α → Draw β}
    (first : draw.Always between) (second : ∀ value, between value → (next value).Always holds) :
    Always holds (draw >>= next) :=
  fun source => second _ (first source) _

/-- Nothing has to be known of the results. -/
theorem always_true (draw : Draw α) : draw.Always fun _ => True :=
  fun _ => trivial

/-- A result is changed behind the draw. -/
theorem run_map (change : α → β) (draw : Draw α) (source : Source) :
    (change <$> draw).run source = (change (draw.run source).1, (draw.run source).2) :=
  rfl

/-- What holds of the result for each item holds of all the results, which are in order. -/
theorem always_mapM {holds : β → α → Prop} {get : β → Draw α} {items : List β}
    (each : ∀ item ∈ items, (get item).Always (holds item)) :
    (items.mapM get).Always (List.Forall₂ holds items) := by
  induction items with
  | nil => exact always_pure .nil
  | cons item items ih =>
    obtain ⟨first, others⟩ := List.forall_mem_cons.mp each
    rw [List.mapM_cons]
    refine always_bind first fun value held => ?_
    exact always_bind (ih others) fun values rest => always_pure (.cons held rest)

/-- A repeated draw has as many results as it is repeated, and each is one of the draw. -/
theorem always_times {holds : α → Prop} {draw : Draw α} (each : draw.Always holds) (count : Nat) :
    (times count draw).Always fun values =>
      values.length = count ∧ ∀ value ∈ values, holds value := by
  intro source
  have all := always_mapM (fun _ (_ : _ ∈ List.range count) => each) source
  refine ⟨all.length_eq.symm.trans List.length_range, fun value member => ?_⟩
  obtain ⟨place, within, rfl⟩ := List.getElem_of_mem member
  exact all.get (by rwa [all.length_eq]) within

/-- A fraction of a count lies below the count. -/
theorem scaled_lt {size count part : Nat} (within : part < size) (positive : 0 < count) :
    part * count / size < count := by
  rw [Nat.div_lt_iff_lt_mul (by omega), Nat.mul_comm count]
  exact Nat.mul_lt_mul_of_pos_right within positive

/-- The highest index leaves no remainder that a second word could carry from. -/
theorem scaled_remainder_le {size count part : Nat} (within : part < size)
    (last : part * count / size = count - 1) : part * count % size ≤ size - count := by
  -- The product is at most a count short of all the indices together.
  have whole := Nat.div_add_mod (part * count) size
  have bound : part * count + count ≤ size * count := by
    rw [← Nat.succ_mul]
    exact Nat.mul_le_mul_right count within
  rw [last, Nat.mul_sub_one] at whole
  omega

/-- An index lies below a positive count. -/
theorem index_lt {count : Nat} (positive : 0 < count) : (index count).Always (· < count) := by
  -- The size of a word depends on the count, but both sizes are positive.
  rw [index]
  generalize sized : (if count < UInt32.size then UInt32.size else UInt64.size) = size
  have filled : 0 < size := by
    rw [← sized]
    split <;> decide
  refine always_bind (always_true word) fun first _ => ?_
  have within := Nat.mod_lt first.toNat filled
  have below := scaled_lt within positive
  dsimp only
  split
  · rename_i coarse
    refine always_bind (always_true word) fun second _ => always_pure ?_
    -- A carry would leave the count only from the highest index.
    have inner : first.toNat % size * count / size ≠ count - 1 := by
      intro last
      have := scaled_remainder_le within last
      omega
    split <;> omega
  · exact always_pure below

/-- The bytes of two words are sixteen. -/
theorem sixteenBytes_length : sixteenBytes.Always (·.length = 16) := by
  refine always_bind (always_true word) fun first _ => ?_
  refine always_bind (always_true word) fun second _ => always_pure ?_
  simp [bytesOf]

end Placeholder.Draw

import Mathlib.Algebra.GroupWithZero.Nat
import Mathlib.Data.List.Forall2
import Placeholder.Yaml.Reading

/-! Readings of nodes need some alias jumps, and stricter readings keep some of the values. -/

namespace Placeholder.Yaml.Resolve

variable {α β : Type}

/-- A reading has a value for a number of jumps, however many are left behind it. -/
def Reads (reading : Resolve α) (value : α) (jumps : Nat) : Prop :=
  ∀ left, reading.run (jumps + left) = some (value, left)

/-- A reading that has a value needs some of the jumps that it is allowed, and no others matter. -/
def Steady (reading : Resolve α) : Prop :=
  ∀ allowed value left, reading.run allowed = some (value, left) →
    ∃ jumps, allowed = jumps + left ∧ reading.Reads value jumps

/-- A reading has only values of a kind, however many jumps it is allowed. -/
def Always (reading : Resolve α) (holds : α → Prop) : Prop :=
  ∀ allowed outcome, reading.run allowed = some outcome → holds outcome.1

/-- A strict reading has those values of another one that are kept, and no others. -/
def Sifts (strict whole : Resolve α) (kept : α → Bool) : Prop :=
  ∀ jumps, strict.run jumps = (whole.run jumps).filter fun outcome => kept outcome.1

/-- A reading behind another one starts with the jumps that are left. -/
theorem run_bind (reading : Resolve α) (next : α → Resolve β) (jumps : Nat) :
    (reading >>= next).run jumps =
      (reading.run jumps).bind fun outcome => (next outcome.1).run outcome.2 :=
  rfl

/-- What may be missing of a value is looked for behind its reading. -/
theorem run'_bind_lift (reading : Resolve α) (find : α → Option β) (jumps : Nat) :
    (reading >>= fun value => (find value : Option β)).run' jumps =
      (reading.run' jumps).bind find := by
  show Option.map _ ((reading.run jumps).bind _) = (Option.map _ (reading.run jumps)).bind find
  cases reading.run jumps with
  | none => rfl
  | some outcome =>
    show Option.map _ ((find outcome.1).bind _) = find outcome.1
    cases find outcome.1 with
    | none => rfl
    | some value => rfl

/-- A value is changed behind its reading. -/
theorem run'_map (change : α → β) (reading : Resolve α) (jumps : Nat) :
    (change <$> reading).run' jumps = (reading.run' jumps).map change := by
  show Option.map _ ((reading.run jumps).bind _) = Option.map _ (Option.map _ (reading.run jumps))
  cases reading.run jumps with
  | none => rfl
  | some outcome => rfl

/-- What is known already needs no jump. -/
theorem reads_pure (value : α) : Reads (pure value) value 0 := by
  intro left
  rw [Nat.zero_add]
  rfl

/-- A reading that needs no more jumps than are allowed has its value. -/
theorem Reads.run' {reading : Resolve α} {value : α} {jumps allowed : Nat}
    (reads : reading.Reads value jumps) (enough : jumps ≤ allowed) :
    reading.run' allowed = some value := by
  obtain ⟨left, rfl⟩ := Nat.exists_eq_add_of_le enough
  show Option.map _ (reading.run (jumps + left)) = _
  rw [reads]
  rfl

/-- Two readings need the jumps of both. -/
theorem Reads.bind {reading : Resolve α} {next : α → Resolve β} {value : α} {result : β}
    {jumps further : Nat} (first : reading.Reads value jumps)
    (second : (next value).Reads result further) :
    (reading >>= next).Reads result (jumps + further) := by
  intro left
  rw [run_bind, Nat.add_assoc, first]
  exact second left

/-- Items that are read one by one need no more jumps than their sizes allow together. -/
theorem reads_mapM {read : α → Resolve β} {size : α → Nat} {rate : Nat} {items : List α}
    {values : List β}
    (each : List.Forall₂
      (fun item value => ∃ jumps ≤ rate * size item, (read item).Reads value jumps) items values) :
    ∃ jumps ≤ rate * (items.map size).sum, (items.mapM read).Reads values jumps := by
  induction each with
  | nil => exact ⟨0, Nat.zero_le _, reads_pure []⟩
  | @cons item value items values first others ih =>
    obtain ⟨jumps, cheap, reads⟩ := first
    obtain ⟨further, cheapOthers, readsOthers⟩ := ih
    refine ⟨jumps + (further + 0), ?_, ?_⟩
    · rw [List.map_cons, List.sum_cons, Nat.mul_add]
      exact Nat.add_le_add cheap cheapOthers
    · rw [List.mapM_cons]
      exact reads.bind (readsOthers.bind (reads_pure _))

/-- What is known already is steady. -/
theorem steady_pure (value : α) : Steady (pure value) := by
  intro allowed result left had
  cases had
  exact ⟨0, (Nat.zero_add _).symm, reads_pure value⟩

/-- A failure has no value to be unsteady about. -/
theorem steady_failure : Steady (failure : Resolve α) :=
  fun _ _ _ had => nomatch had

/-- What may be missing needs no jump either. -/
theorem steady_lift (found : Option α) : Steady (liftM found : Resolve α) := by
  cases found with
  | none => exact fun _ _ _ had => nomatch had
  | some value => exact steady_pure value

/-- Steady readings follow each other steadily. -/
theorem Steady.bind {reading : Resolve α} {next : α → Resolve β} (first : reading.Steady)
    (second : ∀ value, (next value).Steady) : (reading >>= next).Steady := by
  intro allowed result left had
  rw [run_bind, Option.bind_eq_some_iff] at had
  obtain ⟨⟨value, between⟩, hadFirst, hadSecond⟩ := had
  obtain ⟨jumps, rfl, reads⟩ := first _ _ _ hadFirst
  obtain ⟨further, rfl, readsNext⟩ := second _ _ _ _ hadSecond
  exact ⟨jumps + further, (Nat.add_assoc _ _ _).symm, reads.bind readsNext⟩

/-- Items that are read steadily are read steadily one by one. -/
theorem steady_mapM {read : α → Resolve β} (each : ∀ item, (read item).Steady)
    (items : List α) : (items.mapM read).Steady := by
  induction items with
  | nil => exact steady_pure []
  | cons item items ih =>
    rw [List.mapM_cons]
    exact (each item).bind fun _ => ih.bind fun _ => steady_pure _

/-- Whatever is read is a value. -/
theorem always_true (reading : Resolve α) : reading.Always fun _ => True :=
  fun _ _ _ => trivial

/-- What is known already is the only value. -/
theorem always_pure {holds : α → Prop} {value : α} (held : holds value) :
    Always (pure value) holds := by
  intro allowed outcome had
  cases had
  exact held

/-- A failure has no value of another kind. -/
theorem always_failure {holds : α → Prop} : Always (failure : Resolve α) holds :=
  fun _ _ had => nomatch had

/-- What may be missing is of a kind when it is so where it is found. -/
theorem always_lift {holds : α → Prop} {found : Option α}
    (held : ∀ value, found = some value → holds value) :
    Always (liftM found : Resolve α) holds := by
  cases found with
  | none => exact fun _ _ had => nomatch had
  | some value => exact always_pure (held value rfl)

/-- What a value is like is known to the reading behind it. -/
theorem Always.bind {reading : Resolve α} {next : α → Resolve β} {holds : α → Prop}
    {goal : β → Prop} (first : reading.Always holds)
    (second : ∀ value, holds value → (next value).Always goal) :
    (reading >>= next).Always goal := by
  intro allowed outcome had
  rw [run_bind, Option.bind_eq_some_iff] at had
  obtain ⟨between, hadFirst, hadSecond⟩ := had
  exact second between.1 (first _ _ hadFirst) _ _ hadSecond

/-- Items that are read one by one have values of a kind when each of them has. -/
theorem always_mapM {read : α → Resolve β} {holds : β → Prop}
    (each : ∀ item, (read item).Always holds) (items : List α) :
    (items.mapM read).Always fun values => ∀ value ∈ values, holds value := by
  induction items with
  | nil => exact always_pure (List.forall_mem_nil _)
  | cons item items ih =>
    rw [List.mapM_cons]
    exact (each item).bind fun value held => ih.bind fun values others =>
      always_pure (List.forall_mem_cons.mpr ⟨held, others⟩)

/-- A value that is kept may be known already. -/
theorem sifts_pure {kept : α → Bool} {value : α} (keeps : kept value = true) :
    Sifts (pure value) (pure value) kept := by
  intro jumps
  show some (value, jumps) = Option.filter _ (some (value, jumps))
  rw [Option.filter_some, if_pos keeps]

/-- A value that is not kept is no value. -/
theorem sifts_drop {kept : α → Bool} {value : α} (drops : kept value = false) :
    Sifts failure (pure value) kept := by
  intro jumps
  show none = Option.filter _ (some (value, jumps))
  rw [Option.filter_some, if_neg (ne_true_of_eq_false drops)]

/-- Nothing is kept of a failure. -/
theorem sifts_failure {kept : α → Bool} : Sifts failure failure kept :=
  fun _ => rfl

/-- A reading that follows one of which everything is kept is sifted by itself. -/
theorem sifts_behind {reading : Resolve α} {strictNext next : α → Resolve β} {kept : β → Bool}
    (second : ∀ value, (strictNext value).Sifts (next value) kept) :
    (reading >>= strictNext).Sifts (reading >>= next) kept := by
  intro jumps
  rw [run_bind, run_bind]
  cases reading.run jumps with
  | none => rfl
  | some outcome => exact second outcome.1 outcome.2

/-- Behind what is dropped everything has to be dropped. -/
theorem Sifts.bind {strict whole : Resolve α} {kept : α → Bool} {strictNext next : α → Resolve β}
    {keptNext : β → Bool} (first : strict.Sifts whole kept)
    (second : ∀ value, kept value = true → (strictNext value).Sifts (next value) keptNext)
    (others : ∀ value, kept value = false → Sifts failure (next value) keptNext) :
    (strict >>= strictNext).Sifts (whole >>= next) keptNext := by
  intro jumps
  rw [run_bind, run_bind, first jumps]
  cases whole.run jumps with
  | none => rfl
  | some outcome =>
    rw [Option.filter_some]
    split
    · rename_i keeps
      exact second outcome.1 keeps outcome.2
    · rename_i drops
      exact others outcome.1 (eq_false_of_ne_true drops) outcome.2

/-- Nothing is kept when nothing is kept behind. -/
theorem sifts_failure_bind {reading : Resolve α} {next : α → Resolve β} {kept : β → Bool}
    (others : ∀ value, Sifts failure (next value) kept) :
    Sifts failure (reading >>= next) kept := by
  intro jumps
  rw [run_bind]
  cases reading.run jumps with
  | none => rfl
  | some outcome => exact others outcome.1 outcome.2

/-- Items that are sifted one by one are kept when each of them is. -/
theorem sifts_mapM {strict whole : α → Resolve β} {kept : β → Bool}
    (each : ∀ item, (strict item).Sifts (whole item) kept) (items : List α) :
    (items.mapM strict).Sifts (items.mapM whole) (·.all kept) := by
  induction items with
  | nil => exact sifts_pure rfl
  | cons item items ih =>
    rw [List.mapM_cons, List.mapM_cons]
    refine (each item).bind (fun value keeps => ?_) fun value drops => ?_
    · refine ih.bind (fun values keepsAll => sifts_pure ?_) fun values dropsAll => sifts_drop ?_
      · rw [List.all_cons, keeps, keepsAll]
        rfl
      · rw [List.all_cons, keeps, dropsAll]
        rfl
    · refine sifts_failure_bind fun values => sifts_drop ?_
      rw [List.all_cons, drops]
      rfl

/-- A strict reading has the value that is read, if it is kept, when there are jumps enough. -/
theorem Sifts.run'_of_reads {strict whole : Resolve α} {kept : α → Bool} {value : α}
    {jumps allowed : Nat} (sifts : strict.Sifts whole kept) (reads : whole.Reads value jumps)
    (enough : jumps ≤ allowed) :
    strict.run' allowed = if kept value then some value else none := by
  obtain ⟨left, rfl⟩ := Nat.exists_eq_add_of_le enough
  show Option.map _ (strict.run (jumps + left)) = _
  rw [sifts, reads, Option.filter_some]
  split
  · rfl
  · rfl

end Placeholder.Yaml.Resolve

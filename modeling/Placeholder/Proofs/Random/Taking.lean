import Mathlib.Algebra.GroupWithZero.Nat
import Mathlib.Data.List.Forall2
import Placeholder.Random.Draw

/-! Draws take a number of words from a source, and no other words matter to their results. -/

namespace Placeholder

namespace Source

/-- The same words, from a position further on. -/
def behind (source : Source) (count : Nat) : Source :=
  { source with drawn := source.drawn + count }

/-- Two sources have the same next words, as many as are said. -/
def AgreesFor (source other : Source) (count : Nat) : Prop :=
  ∀ place < count, other.word (other.drawn + place) = source.word (source.drawn + place)

/-- Sources that agree for some words agree for fewer. -/
theorem AgreesFor.fewer {source other : Source} {count fewer : Nat}
    (agrees : source.AgreesFor other count) (less : fewer ≤ count) :
    source.AgreesFor other fewer :=
  fun place within => agrees place (Nat.lt_of_lt_of_le within less)

/-- Sources that agree for some words agree behind the first of them for the others. -/
theorem AgreesFor.later {source other : Source} {count further : Nat}
    (agrees : source.AgreesFor other (count + further)) :
    (source.behind count).AgreesFor (other.behind count) further := by
  intro place within
  have same := agrees (count + place) (Nat.add_lt_add_left within count)
  rw [← Nat.add_assoc, ← Nat.add_assoc] at same
  exact same

/-- Positions add up. -/
@[simp] theorem behind_behind (source : Source) (count further : Nat) :
    (source.behind count).behind further = source.behind (count + further) := by
  rw [behind, behind, behind, Nat.add_assoc]

end Source

namespace Draw

variable {α β : Type}

/-- A draw has a value and takes some words, whatever other words come before or behind them. -/
def Takes (draw : Draw α) (source : Source) (value : α) (count : Nat) : Prop :=
  ∀ other, source.AgreesFor other count → draw.run other = (value, other.behind count)

/-- From every source a draw takes a number of words that is allowed for the value it has then. -/
def Spends (draw : Draw α) (allowed : α → Nat → Prop) : Prop :=
  ∀ source, ∃ value count, draw.Takes source value count ∧ allowed value count

/-- A draw that takes words runs to its value and leaves the source behind them. -/
theorem Takes.run {draw : Draw α} {source : Source} {value : α} {count : Nat}
    (takes : draw.Takes source value count) :
    draw.run source = (value, source.behind count) :=
  takes source fun _ _ => rfl

/-- A value that is returned takes no word. -/
theorem takes_pure (value : α) (source : Source) :
    Takes (pure value : Draw α) source value 0 :=
  fun _ _ => rfl

/-- The next word is the only one that is taken. -/
theorem takes_word (source : Source) : Takes word source (source.word source.drawn) 1 := by
  intro other agrees
  have same := agrees 0 Nat.zero_lt_one
  rw [Nat.add_zero, Nat.add_zero] at same
  rw [← same]
  rfl

/-- The words of two draws follow each other. -/
theorem Takes.bind {draw : Draw α} {next : α → Draw β} {source : Source} {value : α} {result : β}
    {count further : Nat} (first : draw.Takes source value count)
    (second : (next value).Takes (source.behind count) result further) :
    (draw >>= next).Takes source result (count + further) := by
  intro other agrees
  rw [StateT.run_bind, first other (agrees.fewer (Nat.le_add_right _ _))]
  show (next value).run (other.behind count) = _
  rw [second _ agrees.later, Source.behind_behind]

/-- More may be allowed. -/
theorem Spends.weaken {draw : Draw α} {allowed more : α → Nat → Prop} (spends : draw.Spends allowed)
    (weaker : ∀ value count, allowed value count → more value count) : draw.Spends more := by
  intro source
  obtain ⟨value, count, takes, fits⟩ := spends source
  exact ⟨value, count, takes, weaker value count fits⟩

/-- A value that is returned is had for nothing. -/
theorem spends_pure {allowed : α → Nat → Prop} {value : α} (fits : allowed value 0) :
    Spends (pure value : Draw α) allowed :=
  fun source => ⟨value, 0, takes_pure value source, fits⟩

/-- A word is one word. -/
theorem spends_word : word.Spends fun _ count => count = 1 :=
  fun source => ⟨_, 1, takes_word source, rfl⟩

/-- What a second draw takes is added to what the first one has taken. -/
theorem Spends.bind {draw : Draw α} {next : α → Draw β} {before : α → Nat → Prop}
    {allowed : β → Nat → Prop} (first : draw.Spends before)
    (second : ∀ value count, before value count →
      (next value).Spends fun result further => allowed result (count + further)) :
    (draw >>= next).Spends allowed := by
  intro source
  obtain ⟨value, count, takes, fits⟩ := first source
  obtain ⟨result, further, takesNext, fitsNext⟩ := second value count fits (source.behind count)
  exact ⟨result, count + further, takes.bind takesNext, fitsNext⟩

/-- A value is changed for nothing. -/
theorem Spends.map {draw : Draw α} {change : α → β} {allowed : β → Nat → Prop}
    (spends : draw.Spends fun value count => allowed (change value) count) :
    (change <$> draw).Spends allowed := by
  rw [← bind_pure_comp]
  exact spends.bind fun _ _ fits => spends_pure fits

/-- A fraction is one word. -/
theorem spends_fraction : fraction.Spends fun _ count => count = 1 :=
  spends_word.bind fun _ _ one => spends_pure one

/-- An index is one word, or two when the first is too coarse. -/
theorem spends_index (size : Nat) : (index size).Spends fun _ count => count = 1 ∨ count = 2 := by
  rw [index]
  generalize (if size < UInt32.size then UInt32.size else UInt64.size) = whole
  refine spends_word.bind fun first count one => ?_
  dsimp only
  split
  · refine spends_word.bind fun second further another => spends_pure ?_
    rw [one, another]
    exact Or.inr rfl
  · refine spends_pure ?_
    rw [one]
    exact Or.inl rfl

/-- A chance is one word, unless it is certain. -/
theorem spends_chance (probability : Binary64) :
    (chance probability).Spends fun _ count => count = 0 ∨ count = 1 := by
  unfold chance
  split
  · split
    · exact spends_pure (Or.inl rfl)
    · exact spends_word.bind fun _ _ one => spends_pure (Or.inr one)
  · exact spends_word.bind fun _ _ one => spends_pure (Or.inr one)

/-- Sixteen bytes are two words. -/
theorem spends_sixteenBytes : sixteenBytes.Spends fun _ count => count = 2 := by
  refine spends_word.bind fun _ _ one => spends_word.bind fun _ _ another => spends_pure ?_
  rw [one, another]

/-- A draw of one word that is repeated takes as many words as it has results. -/
theorem spends_times {draw : Draw α} (single : draw.Spends fun _ count => count = 1)
    (count : Nat) :
    (times count draw).Spends fun values total => values.length = count ∧ total = count := by
  -- The induction is on the list of repetitions, of which only the length matters.
  have each : ∀ repetitions : List Nat, (repetitions.mapM fun _ => draw).Spends
      fun values total => values.length = repetitions.length ∧ total = repetitions.length := by
    intro repetitions
    induction repetitions with
    | nil => exact spends_pure ⟨rfl, rfl⟩
    | cons repetition repetitions ih =>
      rw [List.mapM_cons]
      refine single.bind fun value one fits => ih.bind fun values total both => spends_pure ?_
      obtain ⟨length, all⟩ := both
      rw [List.length_cons, List.length_cons, length, fits, all]
      omega
  have all := each (List.range count)
  rw [List.length_range] at all
  exact all

/-- Draws in turn, of which each starts where the one in front of it has stopped. -/
inductive InTurn : List (Draw α) → Source → List (α × Nat) → Prop where
  | done (source : Source) : InTurn [] source []
  | next {draw : Draw α} {draws : List (Draw α)} {source : Source} {value : α} {count : Nat}
    {results : List (α × Nat)} (takes : draw.Takes source value count)
    (others : InTurn draws (source.behind count) results) :
    InTurn (draw :: draws) source ((value, count) :: results)

/-- Draws that are run one after another have the values that they have in turn. -/
theorem InTurn.run {draws : List (Draw α)} {source : Source} {results : List (α × Nat)}
    (turns : InTurn draws source results) :
    (draws.mapM id).run source =
      (results.map (·.1), source.behind (results.map (·.2)).sum) := by
  induction turns with
  | done source => rfl
  | @next draw draws source value count results takes others ih =>
    rw [List.mapM_cons, StateT.run_bind, id, takes.run]
    show ((draws.mapM id) >>= fun values => pure (value :: values)).run (source.behind count) = _
    rw [StateT.run_bind, ih]
    show ((value :: results.map (·.1)), (source.behind count).behind _) = _
    rw [Source.behind_behind, List.map_cons, List.map_cons, List.sum_cons]

/-- Draws of which each takes some words take their turns. -/
theorem exists_inTurn {draws : List (Draw α)}
    (each : ∀ draw ∈ draws, draw.Spends fun _ _ => True) (source : Source) :
    ∃ results, InTurn draws source results := by
  induction draws generalizing source with
  | nil => exact ⟨[], .done source⟩
  | cons draw draws ih =>
    obtain ⟨first, others⟩ := List.forall_mem_cons.mp each
    obtain ⟨value, count, takes, -⟩ := first source
    obtain ⟨results, turns⟩ := ih others (source.behind count)
    exact ⟨(value, count) :: results, .next takes turns⟩

end Draw

end Placeholder

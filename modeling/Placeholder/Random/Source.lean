/-! Random words come from a source that counts how many of them have been drawn. -/

namespace Placeholder

/-- An endless stream of words with the position of the next one. -/
structure Source where
  word : Nat → UInt64
  drawn : Nat

namespace Source

/-- The increment of the mixed stream's counter. -/
def increment : UInt64 :=
  0x9E3779B97F4A7C15

/-- The mixing function that turns counters into words. -/
def mix (counter : UInt64) : UInt64 :=
  let z := (counter ^^^ (counter >>> 30)) * 0xBF58476D1CE4E5B9
  let z := (z ^^^ (z >>> 27)) * 0x94D049BB133111EB
  z ^^^ (z >>> 31)

/-- The words of a tape, followed by the mixed stream of a seed. -/
def ofTape (tape : Array UInt64) (seed : UInt64) : Source where
  word position :=
    match tape[position]? with
    | some word => word
    -- The counter steps once before each word of the stream.
    | none => mix (seed + increment * UInt64.ofNat (position - tape.size + 1))
  drawn := 0

end Source

/-- A computation that draws words from a source. -/
abbrev Draw (α : Type) :=
  StateM Source α

namespace Draw

/-- The next word of the source. -/
def word : Draw UInt64 := fun source =>
  (source.word source.drawn, { source with drawn := source.drawn + 1 })

/-- A computation repeated a number of times, with all its results. -/
def times {α : Type} (count : Nat) (draw : Draw α) : Draw (List α) :=
  (List.range count).mapM fun _ => draw

end Draw

end Placeholder

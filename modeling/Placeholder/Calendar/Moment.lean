import Placeholder.Calendar.Date

/-! Moments are instants in Universal Time, seen on a clock some seconds east of it. -/

namespace Placeholder.Calendar

/-- Seconds from the epoch with nanoseconds, of which a leap second has `10⁹` or more. -/
structure Instant where
  seconds : Int
  nanos : Nat
deriving DecidableEq, Repr

namespace Instant

/-- The start of the year 1970. -/
def epoch : Instant :=
  ⟨0, 0⟩

/-- Whole milliseconds from the epoch, fractions cut off. -/
def millis (instant : Instant) : Int :=
  instant.seconds * 1000 + instant.nanos / 1000000

/-- The first millisecond that has a date, in the year −262143. -/
def firstMillis : Int :=
  -8334601228800000

/-- The last millisecond that has a date, in the year 262142. -/
def lastMillis : Int :=
  8210266876799999

/-- The instant of a millisecond, if it has a date. -/
def ofMillis? (millis : Int) : Option Instant :=
  if firstMillis ≤ millis ∧ millis ≤ lastMillis then
    some ⟨millis / 1000, (millis % 1000).toNat * 1000000⟩
  else none

end Instant

/-- A date and a time of day as a clock at some offset shows them. -/
structure ClockTime where
  date : Date
  /-- The day of the week, from Sunday as zero. -/
  weekday : Nat
  hour : Nat
  minute : Nat
  /-- The second, which is sixty in a leap second. -/
  second : Nat
  /-- Milliseconds of the second. -/
  milli : Nat
  /-- Seconds by which the clock is ahead of Universal Time. -/
  offset : Int
deriving DecidableEq, Repr

/-- What a clock at an offset shows at an instant. -/
def Instant.at (instant : Instant) (offset : Int) : ClockTime :=
  let seconds := instant.seconds + offset
  let days := seconds / 86400
  let secondOfDay := (seconds % 86400).toNat
  { date := .ofDays days
    weekday := weekday days
    hour := secondOfDay / 3600
    minute := secondOfDay / 60 % 60
    second := secondOfDay % 60 + instant.nanos / 1000000000
    milli := instant.nanos % 1000000000 / 1000000
    offset }

end Placeholder.Calendar

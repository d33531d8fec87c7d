/-! Dates of the proleptic Gregorian calendar are counted in days from the first of January 1970. -/

namespace Placeholder.Calendar

/-- A year, a month from one and a day of the month from one. -/
structure Date where
  year : Int
  month : Nat
  day : Nat
deriving DecidableEq, Repr

namespace Date

/-- Days of four hundred years, after which the calendar repeats. -/
def daysPerEra : Nat :=
  146097

/-- Days from the first of March of year zero to the first of January 1970. -/
def daysToEpoch : Int :=
  719468

/-- The year of an era and the day of the year, with years that start in March. -/
def yearAndDay (dayOfEra : Nat) : Nat × Nat :=
  -- A leap day ends its year, so only the last period of each kind is longer than the others.
  let century := Nat.min 3 (dayOfEra / 36524)
  let dayOfCentury := dayOfEra - 36524 * century
  let cycle := dayOfCentury / 1461
  let dayOfCycle := dayOfCentury % 1461
  let year := Nat.min 3 (dayOfCycle / 365)
  (100 * century + 4 * cycle + year, dayOfCycle - 365 * year)

/-- Days of the year before a month that is counted from March. -/
def daysBefore (marchMonth : Nat) : Nat :=
  (153 * marchMonth + 2) / 5

/-- The date of a day counted from the epoch. -/
def ofDays (days : Int) : Date :=
  let shifted := days + daysToEpoch
  let era := shifted / daysPerEra
  let (yearOfEra, dayOfYear) := yearAndDay (shifted % daysPerEra).toNat
  let marchMonth := (5 * dayOfYear + 2) / 153
  -- January and February close the year that began in March.
  let wrapped := 10 ≤ marchMonth
  { year := 400 * era + yearOfEra + if wrapped then 1 else 0
    month := if wrapped then marchMonth - 9 else marchMonth + 3
    day := dayOfYear - daysBefore marchMonth + 1 }

/-- The day of a date counted from the epoch. -/
def toDays (date : Date) : Int :=
  let wrapped := date.month ≤ 2
  let year := if wrapped then date.year - 1 else date.year
  let marchMonth := if wrapped then date.month + 9 else date.month - 3
  let yearOfEra := (year % 400).toNat
  let dayOfYear := daysBefore marchMonth + date.day - 1
  let dayOfEra := 365 * yearOfEra + yearOfEra / 4 - yearOfEra / 100 + dayOfYear
  daysPerEra * (year / 400) + dayOfEra - daysToEpoch

end Date

/-- The day of the week of a day counted from the epoch, from Sunday as zero. -/
def weekday (days : Int) : Nat :=
  -- The epoch was a Thursday.
  ((days + 4) % 7).toNat

end Placeholder.Calendar

import Placeholder.Calendar.Moment
import Placeholder.Text.Digits

/-! The fields of a clock time, with the two ways of writing each into a pattern. -/

namespace Placeholder.Calendar

open Text (zeroPadded decimalDigits)

/-- A part of a clock time that can be written out. -/
inductive Field where
  | year | monthName | weekdayName | shortMonthName | shortWeekdayName | milli
  | shortYear | paddedMonth | paddedDay | paddedHour | paddedTwelfth | paddedMinute
  | paddedSecond | zone | month | day | weekday | hour | twelfth | minute | second
  | upperHalf | lowerHalf | colonZone
deriving DecidableEq, Repr

namespace Field

/-- Each field with its token in a date pattern and its specifier in a `%` format. -/
def table : List (Field × String × String) :=
  -- Longer tokens stand before their own beginnings, so the first that fits is the longest.
  [(year, "YYYY", "Y"), (monthName, "MMMM", "B"), (weekdayName, "dddd", "A"),
    (shortMonthName, "MMM", "b"), (shortWeekdayName, "ddd", "a"), (milli, "SSS", "3f"),
    (shortYear, "YY", "y"), (paddedMonth, "MM", "m"), (paddedDay, "DD", "d"),
    (paddedHour, "HH", "H"), (paddedTwelfth, "hh", "I"), (paddedMinute, "mm", "M"),
    (paddedSecond, "ss", "S"), (zone, "ZZ", "z"), (month, "M", "-m"), (day, "D", "-d"),
    (weekday, "d", "w"), (hour, "H", "-H"), (twelfth, "h", "-I"), (minute, "m", "-M"),
    (second, "s", "-S"), (upperHalf, "A", "p"), (lowerHalf, "a", "P"), (colonZone, "Z", ":z")]

/-- English names of the months, from January. -/
def monthNames : List String :=
  ["January", "February", "March", "April", "May", "June", "July", "August", "September",
    "October", "November", "December"]

/-- English names of the days of the week, from Sunday. -/
def weekdayNames : List String :=
  ["Sunday", "Monday", "Tuesday", "Wednesday", "Thursday", "Friday", "Saturday"]

/-- A year has four digits, and outside of them a sign and at least four digits. -/
def yearText (year : Int) : List Char :=
  if 0 ≤ year ∧ year ≤ 9999 then zeroPadded 4 year.natAbs
  else (if year < 0 then '-' else '+') :: zeroPadded 4 year.natAbs

/-- An offset is a sign with hours and minutes, its size rounded to the nearest minute. -/
def offsetText (separator : List Char) (offset : Int) : List Char :=
  let minutes := (offset.natAbs + 30) / 60
  (if offset < 0 then '-' else '+') ::
    (zeroPadded 2 (minutes / 60) ++ separator ++ zeroPadded 2 (minutes % 60))

/-- The hour on a dial of twelve. -/
def hourOfDial (hour : Nat) : Nat :=
  if hour % 12 = 0 then 12 else hour % 12

/-- The text of a field of a clock time. -/
def text (field : Field) (time : ClockTime) : List Char :=
  match field with
  | .year => yearText time.date.year
  | .monthName => (monthNames.getD (time.date.month - 1) "").toList
  | .weekdayName => (weekdayNames.getD time.weekday "").toList
  | .shortMonthName => (monthNames.getD (time.date.month - 1) "").toList.take 3
  | .shortWeekdayName => (weekdayNames.getD time.weekday "").toList.take 3
  | .milli => zeroPadded 3 time.milli
  | .shortYear => zeroPadded 2 (time.date.year % 100).toNat
  | .paddedMonth => zeroPadded 2 time.date.month
  | .paddedDay => zeroPadded 2 time.date.day
  | .paddedHour => zeroPadded 2 time.hour
  | .paddedTwelfth => zeroPadded 2 (hourOfDial time.hour)
  | .paddedMinute => zeroPadded 2 time.minute
  | .paddedSecond => zeroPadded 2 time.second
  | .zone => offsetText [] time.offset
  | .month => decimalDigits time.date.month
  | .day => decimalDigits time.date.day
  | .weekday => decimalDigits time.weekday
  | .hour => decimalDigits time.hour
  | .twelfth => decimalDigits (hourOfDial time.hour)
  | .minute => decimalDigits time.minute
  | .second => decimalDigits time.second
  | .upperHalf => if time.hour < 12 then ['A', 'M'] else ['P', 'M']
  | .lowerHalf => if time.hour < 12 then ['a', 'm'] else ['p', 'm']
  | .colonZone => offsetText [':'] time.offset

end Field

end Placeholder.Calendar

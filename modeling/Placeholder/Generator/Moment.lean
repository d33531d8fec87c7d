import Placeholder.Binary64.Integral
import Placeholder.Calendar.Pattern
import Placeholder.Options
import Placeholder.Random.Draw
import Placeholder.Value

/-! Moments are drawn between the epoch and now, and shown by date patterns. -/

namespace Placeholder

/-- The time that generators take for now, in milliseconds, and the offset of the local clock. -/
structure Clock where
  now : Int
  /-- Seconds by which local clocks are ahead of Universal Time. -/
  offset : Int := 0

namespace Generator

open Calendar (Instant Pattern.format)

/-- The millisecond that a fraction picks between the epoch and a later time. -/
def millisAt (fraction : Binary64) (now : Int) : Int :=
  (fraction * Binary64.ofInt (max now 0)).toInt64.toInt

/-- An instant between the epoch and a later time. -/
def instantBefore (now : Int) : Draw Instant := do
  return (Instant.ofMillis? (millisAt (← Draw.fraction) now)).getD .epoch

/-- The default pattern of dates. -/
def datePattern : String :=
  "YYYY-MM-DD"

/-- The default pattern of times. -/
def timePattern : String :=
  "HH:mm:ss"

/-- The default pattern of dates with times. -/
def dateTimePattern : String :=
  "YYYY-MM-DD HH:mm:ss"

/-- A generator of moments, with the option `format` in place of its own pattern. -/
def generateMoment (clock : Clock) (ownPattern : String) (options : Options) : Draw Value := do
  let pattern := (options.text? "format" 0).getD ownPattern
  let instant ← instantBefore clock.now
  return .string (Pattern.format pattern (instant.at clock.offset))

end Generator

end Placeholder

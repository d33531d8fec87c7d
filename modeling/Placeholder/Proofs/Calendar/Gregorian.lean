import Mathlib.Order.Monotone.Basic
import Mathlib.Tactic.IntervalCases
import Placeholder.Calendar.Date

/-! Days are counted along the proleptic Gregorian calendar, in which each date has a next one. -/

namespace Placeholder.Calendar.Date

/-- Every fourth year has a leap day, but of the years that end a century only every fourth. -/
def LeapYear (year : Int) : Prop :=
  year % 4 = 0 ∧ (year % 100 ≠ 0 ∨ year % 400 = 0)

instance (year : Int) : Decidable (LeapYear year) :=
  inferInstanceAs (Decidable (_ ∧ _))

/-- The number of days of a month. -/
def monthLength (year : Int) (month : Nat) : Nat :=
  if month = 2 then if LeapYear year then 29 else 28
  else if month = 4 ∨ month = 6 ∨ month = 9 ∨ month = 11 then 30
  else 31

/-- A date that the calendar has. -/
structure Valid (date : Date) : Prop where
  month : 1 ≤ date.month ∧ date.month ≤ 12
  day : 1 ≤ date.day ∧ date.day ≤ monthLength date.year date.month

/-- The date of the following day. -/
def next (date : Date) : Date :=
  if date.day < monthLength date.year date.month then { date with day := date.day + 1 }
  else if date.month < 12 then { date with month := date.month + 1, day := 1 }
  else ⟨date.year + 1, 1, 1⟩

/-- The number of days in a year that begins in March, whose leap day is its last one. -/
def marchLength (year : Int) : Nat :=
  if LeapYear (year + 1) then 366 else 365

/-- The days of an era in front of one of its years. -/
def daysBeforeYear (yearOfEra : Nat) : Nat :=
  365 * yearOfEra + yearOfEra / 4 - yearOfEra / 100

/-- The date of a day in a year that begins in March. -/
def ofMarch (year : Int) (day : Nat) : Date :=
  let marchMonth := (5 * day + 2) / 153
  { year := year + if 10 ≤ marchMonth then 1 else 0
    month := if 10 ≤ marchMonth then marchMonth - 9 else marchMonth + 3
    day := day - daysBefore marchMonth + 1 }

/-- A year that begins in March is a day longer when the year it ends in is a leap year. -/
theorem marchLength_cases (year : Int) :
    LeapYear (year + 1) ∧ marchLength year = 366 ∨
      ¬ LeapYear (year + 1) ∧ marchLength year = 365 := by
  by_cases leap : LeapYear (year + 1)
  · exact Or.inl ⟨leap, if_pos leap⟩
  · exact Or.inr ⟨leap, if_neg leap⟩

/-- A year that begins in March has 365 days or one more. -/
theorem marchLength_between (year : Int) : 365 ≤ marchLength year ∧ marchLength year ≤ 366 := by
  rcases marchLength_cases year with ⟨-, long⟩ | ⟨-, short⟩
  · omega
  · omega

/-- The years of an era follow each other without a gap. -/
theorem daysBeforeYear_succ {yearOfEra : Nat} (within : yearOfEra + 1 < 400) :
    daysBeforeYear (yearOfEra + 1) = daysBeforeYear yearOfEra + marchLength yearOfEra := by
  unfold daysBeforeYear
  rcases marchLength_cases yearOfEra with ⟨leap, long⟩ | ⟨common, short⟩
  · unfold LeapYear at leap
    omega
  · unfold LeapYear at common
    omega

/-- A day of an era lies in one of its years. -/
theorem yearAndDay_spec {dayOfEra : Nat} (within : dayOfEra < daysPerEra) :
    (yearAndDay dayOfEra).1 < 400 ∧
      (yearAndDay dayOfEra).2 < marchLength (yearAndDay dayOfEra).1 ∧
      daysBeforeYear (yearAndDay dayOfEra).1 + (yearAndDay dayOfEra).2 = dayOfEra := by
  unfold daysPerEra at within
  unfold yearAndDay daysBeforeYear
  dsimp only
  -- A century, a cycle of four years and a year are found one in the other, and only the last
  -- century of an era and the last year of a cycle may be a day longer than the division says.
  generalize sameCentury : Nat.min 3 (dayOfEra / 36524) = century
  have centuries : century = min 3 (dayOfEra / 36524) := sameCentury.symm
  generalize sameDay : dayOfEra - 36524 * century = dayOfCentury
  have inEra : century ≤ 3 ∧ 36524 * century + dayOfCentury = dayOfEra ∧ dayOfCentury ≤ 36524 ∧
      (dayOfCentury = 36524 → century = 3) := by omega
  clear centuries sameCentury sameDay
  have inCentury : dayOfCentury / 1461 ≤ 24 ∧
      (dayOfCentury / 1461 = 24 ∧ dayOfCentury % 1461 = 1460 → century = 3) := by omega
  have days := Nat.div_add_mod dayOfCentury 1461
  have rest := Nat.mod_lt dayOfCentury (show 0 < 1461 by decide)
  generalize dayOfCentury / 1461 = cycle at inCentury days ⊢
  generalize dayOfCentury % 1461 = dayOfCycle at inCentury days rest ⊢
  generalize sameYear : Nat.min 3 (dayOfCycle / 365) = year
  have years : year = min 3 (dayOfCycle / 365) := sameYear.symm
  have inCycle : year ≤ 3 ∧ 365 * year ≤ dayOfCycle ∧ dayOfCycle ≤ 365 * year + 365 ∧
      (dayOfCycle = 365 * year + 365 → year = 3) := by omega
  clear years sameYear
  generalize sameEra : 100 * century + 4 * cycle + year = yearOfEra
  have leaps : yearOfEra / 4 = 25 * century + cycle := by omega
  have skips : yearOfEra / 100 = century := by omega
  rw [leaps, skips]
  refine ⟨by omega, ?_, by omega⟩
  rcases marchLength_cases yearOfEra with ⟨leap, long⟩ | ⟨common, short⟩
  · omega
  · -- The last year of a cycle is a leap year, but for that of a century before the last one.
    unfold LeapYear at common
    omega

/-- A year of an era ends before a later one begins. -/
theorem daysBeforeYear_le {year later : Nat} (earlier : year < later) (within : later < 400) :
    daysBeforeYear year + marchLength year ≤ daysBeforeYear later := by
  -- The years in between only add days.
  induction later, earlier using Nat.le_induction with
  | base => exact Nat.le_of_eq (daysBeforeYear_succ within).symm
  | succ later _ ih =>
    have inner := ih (by omega)
    have step := daysBeforeYear_succ within
    omega

/-- No day of an era lies in two of its years. -/
theorem yearAndDay_unique {year day otherYear otherDay : Nat} (within : year < 400)
    (inside : day < marchLength year) (otherWithin : otherYear < 400)
    (otherInside : otherDay < marchLength otherYear)
    (same : daysBeforeYear year + day = daysBeforeYear otherYear + otherDay) :
    year = otherYear ∧ day = otherDay := by
  rcases Nat.lt_trichotomy year otherYear with earlier | rfl | later
  · -- The earlier year would have ended before the day.
    have ended := daysBeforeYear_le earlier otherWithin
    omega
  · exact ⟨rfl, by omega⟩
  · have ended := daysBeforeYear_le later within
    omega

/-- Leap years repeat in every era. -/
theorem marchLength_era (era : Int) (year : Int) :
    marchLength (400 * era + year) = marchLength year := by
  have same : LeapYear (400 * era + year + 1) ↔ LeapYear (year + 1) := by
    unfold LeapYear
    omega
  unfold marchLength
  rw [if_congr same rfl rfl]

/-- A day in a year that begins in March has a date of its own. -/
theorem ofDays_eq_ofMarch {days era : Int} {year day : Nat} (within : year < 400)
    (inside : day < marchLength year)
    (counted : days + daysToEpoch = daysPerEra * era + (daysBeforeYear year + day : Nat)) :
    ofDays days = ofMarch (400 * era + year) day := by
  -- The day of the era is what is left of the days, so its year and day are found again.
  have bounded : daysBeforeYear year + day < daysPerEra := by
    rcases Nat.lt_or_ge year 399 with earlier | latest
    · have ended := daysBeforeYear_le earlier (by decide)
      have before : daysBeforeYear 399 = 145731 := rfl
      unfold daysPerEra
      omega
    · obtain rfl : year = 399 := by omega
      have before : daysBeforeYear 399 = 145731 := rfl
      have length : marchLength ((399 : Nat) : Int) = 366 := rfl
      unfold daysPerEra
      omega
  have dayOfEra : ((days + daysToEpoch) % daysPerEra).toNat = daysBeforeYear year + day := by
    rw [counted]
    unfold daysPerEra at bounded ⊢
    omega
  have eraOfDay : (days + daysToEpoch) / daysPerEra = era := by
    rw [counted]
    unfold daysPerEra at bounded ⊢
    omega
  obtain ⟨found, foundInside, sum⟩ := yearAndDay_spec bounded
  obtain ⟨sameYear, sameDay⟩ := yearAndDay_unique found foundInside within inside sum
  unfold ofDays
  dsimp only
  rw [dayOfEra, eraOfDay, sameYear, sameDay]
  rfl

/-- Every day lies in one of the years that begin in March. -/
theorem exists_ofDays_eq (days : Int) :
    ∃ (era : Int) (year day : Nat), year < 400 ∧ day < marchLength year ∧
      days + daysToEpoch = daysPerEra * era + (daysBeforeYear year + day : Nat) ∧
      ofDays days = ofMarch (400 * era + year) day := by
  -- The era and the day in it are the quotient and the remainder, also in front of the epoch.
  let dayOfEra := ((days + daysToEpoch) % daysPerEra).toNat
  have counted : days + daysToEpoch =
      daysPerEra * ((days + daysToEpoch) / daysPerEra) + (dayOfEra : Nat) := by
    unfold dayOfEra daysPerEra
    omega
  have bounded : dayOfEra < daysPerEra := by
    unfold dayOfEra daysPerEra
    omega
  obtain ⟨within, inside, sum⟩ := yearAndDay_spec bounded
  rw [← sum] at counted
  exact ⟨_, _, _, within, inside, counted, ofDays_eq_ofMarch within inside counted⟩

/-- A month that is counted from March ends where the next one begins or where the year does. -/
theorem daysBefore_add_monthLength (year : Int) {marchMonth : Nat} (within : marchMonth < 12) :
    daysBefore marchMonth + monthLength (year + if 10 ≤ marchMonth then 1 else 0)
        (if 10 ≤ marchMonth then marchMonth - 9 else marchMonth + 3) =
      if marchMonth = 11 then marchLength year else daysBefore (marchMonth + 1) := by
  -- Only the length of February, the eleventh month from March, depends on the year.
  rcases Nat.lt_or_eq_of_le (Nat.le_of_lt_succ within) with earlier | rfl
  · have other : marchMonth ≠ 11 := by omega
    rw [if_neg other]
    interval_cases marchMonth
    all_goals rfl
  · rcases marchLength_cases year with ⟨leap, long⟩ | ⟨common, short⟩
    · simp [daysBefore, monthLength, leap, long]
    · simp [daysBefore, monthLength, common, short]

/-- The month of a day begins before it or on it and ends behind it. -/
theorem marchMonth_spec {day : Nat} (within : day < 366) :
    (5 * day + 2) / 153 < 12 ∧ daysBefore ((5 * day + 2) / 153) ≤ day ∧
      day < daysBefore ((5 * day + 2) / 153 + 1) := by
  unfold daysBefore
  omega

/-- A day of a year that begins in March is followed by the next one of that year. -/
theorem next_ofMarch {year : Int} {day : Nat} (within : day + 1 < marchLength year) :
    (ofMarch year day).next = ofMarch year (day + 1) := by
  have bounded : day + 1 < 366 := Nat.lt_of_lt_of_le within (marchLength_between year).2
  obtain ⟨listed, begun, ended⟩ := marchMonth_spec (Nat.lt_of_succ_lt bounded)
  obtain ⟨-, laterBegun, laterEnded⟩ := marchMonth_spec bounded
  have length := daysBefore_add_monthLength year listed
  unfold next ofMarch
  dsimp only
  generalize (5 * day + 2) / 153 = month at listed begun ended length ⊢
  generalize (5 * (day + 1) + 2) / 153 = later at laterBegun laterEnded ⊢
  generalize monthLength _ _ = days at length ⊢
  by_cases inside : day + 1 < daysBefore (month + 1)
  · -- The day after it belongs to the same month.
    have same : later = month := by
      unfold daysBefore at begun inside laterBegun laterEnded
      omega
    have counted : day - daysBefore month + 1 < days := by
      split at length
      · omega
      · omega
    rw [if_pos counted, same]
    simp only [mk.injEq, true_and]
    omega
  · -- The day after it is the first of the next month.
    have first : daysBefore (month + 1) = day + 1 := by omega
    have following : later = month + 1 := by
      unfold daysBefore at first laterBegun laterEnded
      omega
    have inner : month ≠ 11 := by
      rintro rfl
      have beyond : daysBefore (11 + 1) = 367 := rfl
      omega
    rw [if_neg inner, first] at length
    have counted : ¬ day - daysBefore month + 1 < days := by omega
    rw [if_neg counted, following, first, Nat.sub_self]
    -- December is the tenth month from March, and January opens the year behind it.
    rcases Nat.lt_trichotomy month 9 with autumn | rfl | winter
    · have early : ¬ 10 ≤ month := by omega
      have alsoEarly : ¬ 10 ≤ month + 1 := by omega
      have more : month + 3 < 12 := by omega
      simp only [if_neg early, if_neg alsoEarly, if_pos more, Nat.add_right_comm]
    · simp
    · have late : 10 ≤ month := by omega
      have alsoLate : 10 ≤ month + 1 := by omega
      have more : month - 9 < 12 := by omega
      have shifted : month - 9 + 1 = month + 1 - 9 := by omega
      simp only [if_pos late, if_pos alsoLate, if_pos more, shifted]

/-- The last day of a year that begins in March is followed by the first of the next such year. -/
theorem next_ofMarch_last {year : Int} {day : Nat} (last : day + 1 = marchLength year) :
    (ofMarch year day).next = ofMarch (year + 1) 0 := by
  -- It is the last day of February, so the first of March follows.
  unfold next ofMarch
  rcases marchLength_cases year with ⟨leap, long⟩ | ⟨common, short⟩
  · obtain rfl : day = 365 := by omega
    simp [monthLength, daysBefore, leap]
  · obtain rfl : day = 364 := by omega
    simp [monthLength, daysBefore, common]

/-- The count of days starts with the year 1970. -/
theorem ofDays_zero : ofDays 0 = ⟨1970, 1, 1⟩ := by
  decide

/-- The date of the day after a day is the next date. -/
theorem ofDays_succ (days : Int) : ofDays (days + 1) = (ofDays days).next := by
  obtain ⟨era, year, day, within, inside, counted, same⟩ := exists_ofDays_eq days
  rw [same]
  rcases Nat.lt_or_eq_of_le (Nat.succ_le_of_lt inside) with inner | last
  · -- The next day is in the same year that began in March.
    rw [next_ofMarch (by rwa [marchLength_era])]
    exact ofDays_eq_ofMarch within inner (by omega)
  · rw [next_ofMarch_last (by rwa [marchLength_era])]
    rcases Nat.lt_or_eq_of_le (show year + 1 ≤ 400 from within) with earlier | final
    · -- Another year of the same era begins.
      have step := daysBeforeYear_succ earlier
      have following : 400 * era + (year : Int) + 1 = 400 * era + (year + 1 : Nat) := by omega
      rw [following]
      exact ofDays_eq_ofMarch earlier (Nat.lt_of_lt_of_le (by decide) (marchLength_between _).1)
        (by omega)
    · -- Another era begins.
      obtain rfl : year = 399 := by omega
      have before : daysBeforeYear 399 = 145731 := rfl
      have length : marchLength (399 : Nat) = 366 := rfl
      have first : 400 * era + (399 : Nat) + 1 = 400 * (era + 1) + (0 : Nat) := by omega
      rw [first]
      refine ofDays_eq_ofMarch (by decide) (by decide) ?_
      have start : daysBeforeYear 0 = 0 := rfl
      unfold daysPerEra at counted ⊢
      omega

/-- Every day has a date of the calendar. -/
theorem valid_ofDays (days : Int) : (ofDays days).Valid := by
  obtain ⟨era, year, day, within, inside, -, same⟩ := exists_ofDays_eq days
  rw [← marchLength_era era] at inside
  rw [same]
  generalize 400 * era + (year : Int) = year at inside ⊢
  have bounded := Nat.lt_of_lt_of_le inside (marchLength_between year).2
  obtain ⟨listed, begun, ended⟩ := marchMonth_spec bounded
  -- The length of the month is the distance of its start from that of the next one.
  have length := daysBefore_add_monthLength year listed
  refine ⟨?_, ?_⟩
  · unfold ofMarch
    dsimp only
    split
    · omega
    · omega
  · unfold ofMarch
    dsimp only
    generalize (5 * day + 2) / 153 = month at listed begun ended length ⊢
    generalize monthLength _ _ = days at length ⊢
    split at length
    · omega
    · omega

/-- A day is found again from its date. -/
theorem toDays_ofDays (days : Int) : (ofDays days).toDays = days := by
  obtain ⟨era, year, day, within, inside, counted, same⟩ := exists_ofDays_eq days
  have bounded := Nat.lt_of_lt_of_le inside (marchLength_between year).2
  obtain ⟨listed, begun, ended⟩ := marchMonth_spec bounded
  rw [same]
  unfold ofMarch toDays
  dsimp only
  generalize (5 * day + 2) / 153 = month at listed begun ended ⊢
  -- January and February are counted to the year that began in the March before them.
  have back : (400 * era + (year : Int)) % 400 = year := by omega
  have eraOfYear : (400 * era + (year : Int)) / 400 = era := by omega
  have dayAgain : daysBefore month + (day - daysBefore month + 1) - 1 = day := by omega
  have counting : 365 * year + year / 4 - year / 100 = daysBeforeYear year := rfl
  by_cases wrapped : 10 ≤ month
  · have early : month - 9 ≤ 2 := by omega
    have monthAgain : month - 9 + 9 = month := by omega
    simp only [if_pos wrapped, if_pos early, monthAgain, Int.add_sub_cancel, back, eraOfYear,
      Int.toNat_natCast, dayAgain, counting]
    omega
  · have late : ¬ month + 3 ≤ 2 := by omega
    simp only [if_neg wrapped, if_neg late, Nat.add_sub_cancel, Int.add_zero, back, eraOfYear,
      Int.toNat_natCast, dayAgain, counting]
    omega

/-- No month has more than 31 days. -/
theorem monthLength_le (year : Int) (month : Nat) : monthLength year month ≤ 31 := by
  unfold monthLength
  split
  · split <;> decide
  · split <;> decide

/-- A date by its digits, year before month before day. -/
def rank (date : Date) : Int :=
  10000 * date.year + 100 * date.month + date.day

/-- The next date ranks higher. -/
theorem rank_lt_next {date : Date} (valid : date.Valid) : date.rank < date.next.rank := by
  obtain ⟨⟨firstMonth, lastMonth⟩, firstDay, lastDay⟩ := valid
  have month := monthLength_le date.year date.month
  -- A new month outweighs 30 days that are lost, and a new year 11 months and 30 days.
  unfold next rank
  split
  · dsimp only
    omega
  · split
    · dsimp only
      omega
    · dsimp only
      omega

/-- Later days have dates that rank higher. -/
theorem rank_ofDays_lt {days others : Int} (before : days < others) :
    (ofDays days).rank < (ofDays others).rank := by
  have step : ∀ days, (ofDays days).rank < (ofDays (days + 1)).rank := by
    intro days
    rw [ofDays_succ]
    exact rank_lt_next (valid_ofDays days)
  exact strictMono_int_of_lt_succ step before

/-- The date of a later day has a later year, or a later month, or a later day of the month. -/
theorem ofDays_lt {days others : Int} (before : days < others) :
    (ofDays days).year < (ofDays others).year ∨
      (ofDays days).year = (ofDays others).year ∧
        ((ofDays days).month < (ofDays others).month ∨
          (ofDays days).month = (ofDays others).month ∧
            (ofDays days).day < (ofDays others).day) := by
  -- Neither a month nor a day of the month is large enough to make up for what stands before it.
  have ranked := rank_ofDays_lt before
  obtain ⟨⟨firstMonth, lastMonth⟩, firstDay, lastDay⟩ := valid_ofDays days
  obtain ⟨⟨otherFirstMonth, otherLastMonth⟩, otherFirstDay, otherLastDay⟩ := valid_ofDays others
  have short := monthLength_le (ofDays days).year (ofDays days).month
  have otherShort := monthLength_le (ofDays others).year (ofDays others).month
  unfold rank at ranked
  omega

/-- A numbering of the days from the start of 1970 along the proleptic Gregorian calendar. -/
structure Numbering (date : Int → Date) : Prop where
  epoch : date 0 = ⟨1970, 1, 1⟩
  following : ∀ days, date (days + 1) = (date days).next

/-- Days are numbered along the calendar. -/
theorem numbering_ofDays : Numbering ofDays :=
  ⟨ofDays_zero, ofDays_succ⟩

end Placeholder.Calendar.Date

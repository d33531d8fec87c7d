import Placeholder.Proofs.Calendar.Format
import Placeholder.Proofs.Calendar.Gregorian
import Placeholder.Proofs.Text.Columns

/-! Stamps of instants in years of four digits read back, and are ordered like the instants. -/

namespace Placeholder.Calendar

open Text (Column)

/-- The pattern of stamps, which show an instant down to its millisecond. -/
def stampPattern : String :=
  "YYYY-MM-DD HH:mm:ss.SSS"

/-- The columns of a stamp. -/
def stampColumns : List Column :=
  [⟨4, ['-'], by decide⟩, ⟨2, ['-'], by decide⟩, ⟨2, [' '], by decide⟩, ⟨2, [':'], by decide⟩,
    ⟨2, [':'], by decide⟩, ⟨2, ['.'], by decide⟩, ⟨3, [], by decide⟩]

/-- The segments of the pattern of stamps. -/
theorem segments_stampPattern :
    Pattern.segments stampPattern.toList =
      [.field .year, .literal ['-'], .field .paddedMonth, .literal ['-'], .field .paddedDay,
        .literal [' '], .field .paddedHour, .literal [':'], .field .paddedMinute, .literal [':'],
        .field .paddedSecond, .literal ['.'], .field .milli] := by
  decide +kernel

/-- What a stamp shows of a clock time, from the year down to the millisecond. -/
def ClockTime.stampFields (time : ClockTime) : List Nat :=
  [time.date.year.toNat, time.date.month, time.date.day, time.hour, time.minute, time.second,
    time.milli]

namespace Instant

/-- The text that shows an instant in Universal Time down to its millisecond. -/
def stamp (instant : Instant) : String :=
  Pattern.format stampPattern (instant.at 0)

/-- An instant that is given in whole milliseconds, in a year of four digits. -/
structure Stampable (instant : Instant) : Prop where
  given : ofMillis? instant.millis = some instant
  year : 0 ≤ (instant.at 0).date.year ∧ (instant.at 0).date.year ≤ 9999

/-- The instant that a text shows in Universal Time by its seven decimal fields. -/
def ofStamp? (text : String) : Option Instant :=
  match Column.read? stampColumns text.toList with
  | some [year, month, day, hour, minute, second, milli] =>
    let days := Date.toDays ⟨year, month, day⟩
    some ⟨86400 * days + (3600 * hour + 60 * minute + second : Nat), milli * 1000000⟩
  | _ => none

/-- An instant that is given in whole milliseconds has no smaller part and no leap second. -/
theorem Stampable.nanos {instant : Instant} (dated : instant.Stampable) :
    instant.nanos % 1000000 = 0 ∧ instant.nanos < 1000000000 := by
  have given := dated.given
  unfold ofMillis? at given
  split at given
  · have same := congrArg Instant.nanos (Option.some.inj given)
    dsimp only at same
    omega
  · cases given

/-- A stamp is the record of its seven fields. -/
theorem stamp_eq {instant : Instant} (dated : instant.Stampable) :
    instant.stamp = String.ofList (Column.write stampColumns (instant.at 0).stampFields) := by
  have year : (instant.at 0).date.year.natAbs = (instant.at 0).date.year.toNat := by
    have := dated.year
    omega
  simp [stamp, Pattern.format, Pattern.format?_pattern, segments_stampPattern,
    Pattern.Segment.text, Field.text, Field.yearText, dated.year, year, Column.write, stampColumns,
    ClockTime.stampFields]

/-- The fields of a stamp fit into its columns. -/
theorem stampFields_fit {instant : Instant} (dated : instant.Stampable) :
    Column.Fit stampColumns (instant.at 0).stampFields := by
  obtain ⟨firstYear, lastYear⟩ := dated.year
  obtain ⟨-, regular⟩ := dated.nanos
  obtain ⟨⟨-, month⟩, -, day⟩ := Date.valid_ofDays ((instant.seconds + 0) / 86400)
  have short := Date.monthLength_le (instant.at 0).date.year (instant.at 0).date.month
  unfold Column.Fit stampColumns ClockTime.stampFields
  -- Each field is a remainder, but for the date, which the calendar bounds.
  simp only [List.forall₂_cons, List.Forall₂.nil, and_true]
  unfold Instant.at at firstYear lastYear short ⊢
  dsimp only at firstYear lastYear short ⊢
  refine ⟨?_, ?_, ?_, ?_, ?_, ?_, ?_⟩
  all_goals omega

/-- An instant is read from its stamp. -/
theorem ofStamp?_stamp {instant : Instant} (dated : instant.Stampable) :
    ofStamp? instant.stamp = some instant := by
  obtain ⟨firstYear, -⟩ := dated.year
  obtain ⟨whole, regular⟩ := dated.nanos
  have day := Date.toDays_ofDays ((instant.seconds + 0) / 86400)
  have date : (⟨((instant.at 0).date.year.toNat : Int), (instant.at 0).date.month,
      (instant.at 0).date.day⟩ : Date) = Date.ofDays ((instant.seconds + 0) / 86400) := by
    rw [Int.toNat_of_nonneg firstYear]
    rfl
  rw [ofStamp?, stamp_eq dated, String.toList_ofList, Column.read?_write (stampFields_fit dated)]
  unfold ClockTime.stampFields
  dsimp only
  rw [date, day]
  unfold Instant.at
  dsimp only
  -- The time of day and the milliseconds are put together as they were taken apart.
  refine congrArg some (Instant.mk.injEq .. ▸ ⟨?_, ?_⟩)
  · omega
  · omega

/-- The fields of a later stamp come later. -/
theorem stampFields_lt {left right : Instant} (leftDated : left.Stampable)
    (rightDated : right.Stampable) (earlier : left.millis < right.millis) :
    (left.at 0).stampFields < (right.at 0).stampFields := by
  obtain ⟨firstYear, -⟩ := leftDated.year
  obtain ⟨otherFirstYear, -⟩ := rightDated.year
  obtain ⟨whole, regular⟩ := leftDated.nanos
  obtain ⟨otherWhole, otherRegular⟩ := rightDated.nanos
  unfold millis at earlier
  unfold ClockTime.stampFields
  simp only [List.cons_lt_cons_iff]
  unfold Instant.at at firstYear otherFirstYear ⊢
  dsimp only at firstYear otherFirstYear ⊢
  rw [Int.add_zero] at firstYear ⊢
  rw [Int.add_zero] at otherFirstYear ⊢
  rcases Int.lt_trichotomy (left.seconds / 86400) (right.seconds / 86400) with before | same | after
  · -- An earlier day has an earlier date.
    rcases Date.ofDays_lt before with year | ⟨year, month | ⟨month, day⟩⟩
    · exact Or.inl ((Int.toNat_lt_toNat (Int.lt_of_le_of_lt firstYear year)).mpr year)
    · exact Or.inr ⟨congrArg Int.toNat year, Or.inl month⟩
    · exact Or.inr ⟨congrArg Int.toNat year, Or.inr ⟨month, Or.inl day⟩⟩
  · -- On the same day the second decides, and in the same second the millisecond does.
    have inDay : (left.seconds % 86400).toNat < (right.seconds % 86400).toNat ∨
        (left.seconds % 86400).toNat = (right.seconds % 86400).toNat ∧
          left.nanos / 1000000 < right.nanos / 1000000 := by omega
    rw [same, Nat.div_eq_of_lt regular, Nat.div_eq_of_lt otherRegular, Nat.mod_eq_of_lt regular,
      Nat.mod_eq_of_lt otherRegular]
    refine Or.inr ⟨rfl, Or.inr ⟨rfl, Or.inr ⟨rfl, ?_⟩⟩⟩
    rcases inDay with second | ⟨second, milli⟩
    · generalize (left.seconds % 86400).toNat = time at second ⊢
      generalize (right.seconds % 86400).toNat = otherTime at second ⊢
      omega
    · rw [second]
      exact Or.inr ⟨rfl, Or.inr ⟨rfl, Or.inr ⟨rfl, Or.inl milli⟩⟩⟩
  · omega

/-- A later instant has a later stamp. -/
theorem stamp_lt_of_millis_lt {left right : Instant} (leftDated : left.Stampable)
    (rightDated : right.Stampable) (earlier : left.millis < right.millis) :
    left.stamp < right.stamp := by
  show left.stamp.toList < right.stamp.toList
  rw [stamp_eq leftDated, stamp_eq rightDated, String.toList_ofList, String.toList_ofList]
  exact Column.write_lt (stampFields_fit leftDated) (stampFields_fit rightDated)
    (stampFields_lt leftDated rightDated earlier)

/-- Instants are given by their milliseconds. -/
theorem Stampable.eq_of_millis_eq {left right : Instant} (leftDated : left.Stampable)
    (rightDated : right.Stampable) (same : left.millis = right.millis) : left = right := by
  have given := leftDated.given
  rw [same] at given
  exact Option.some.inj (given.symm.trans rightDated.given)

/--
Stamps are read back, and are ordered like their instants.

Days are numbered along the proleptic Gregorian calendar. In a year of four digits the stamp of an
instant in whole milliseconds is read back as the instant, field by field. Of two such instants one
is earlier exactly when its stamp comes first in the order of texts.
-/
theorem stamps_read_back_in_order {left right : Instant} (leftDated : left.Stampable)
    (rightDated : right.Stampable) :
    Date.Numbering Date.ofDays ∧ ofStamp? left.stamp = some left ∧
      (left.millis < right.millis ↔ left.stamp < right.stamp) := by
  refine ⟨Date.numbering_ofDays, ofStamp?_stamp leftDated, ?_, ?_⟩
  · exact stamp_lt_of_millis_lt leftDated rightDated
  · intro first
    -- Neither the same instant nor a later one has a stamp that comes first.
    rcases Int.lt_trichotomy left.millis right.millis with earlier | same | later
    · exact earlier
    · rw [leftDated.eq_of_millis_eq rightDated same] at first
      exact absurd first (String.lt_irrefl _)
    · exact absurd first (String.lt_asymm (stamp_lt_of_millis_lt rightDated leftDated later))

/-- The last millisecond of the leap day in the year zero is stamped in front of the epoch. -/
theorem early_stamp_before_epoch :
    Date.Numbering Date.ofDays ∧
      ofStamp? (Instant.mk (-62162035201) 999000000).stamp =
        some ⟨-62162035201, 999000000⟩ ∧
      ((Instant.mk (-62162035201) 999000000).millis < epoch.millis ↔
        (Instant.mk (-62162035201) 999000000).stamp < epoch.stamp) :=
  stamps_read_back_in_order ⟨by decide, by decide⟩ ⟨by decide, by decide⟩

end Instant

end Placeholder.Calendar

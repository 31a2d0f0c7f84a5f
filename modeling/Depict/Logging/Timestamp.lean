import Depict.Decimal.Numeral

/-!
# Points in time

Seconds since the beginning of 1970 as a date and a time of day in the Gregorian
calendar, without regard to time zones. Years are counted from March on, so that a
leap day is the last day of its year.
-/
namespace Depict
open Decimal

/-- A day of the calendar. -/
structure Date where
  year : Int
  month : Nat
  day : Nat
  deriving DecidableEq

/-- The day with this number, where day zero is the first of January 1970. -/
def Date.ofDays (days : Int) : Date :=
  let fromMarch := days + 719468
  let era := fromMarch.fdiv 146097
  let dayOfEra := (fromMarch - era * 146097).toNat
  let yearOfEra := (dayOfEra - dayOfEra / 1460 + dayOfEra / 36524 - dayOfEra / 146096) / 365
  let dayOfYear := dayOfEra - (365 * yearOfEra + yearOfEra / 4 - yearOfEra / 100)
  let monthFromMarch := (5 * dayOfYear + 2) / 153
  let day := dayOfYear - (153 * monthFromMarch + 2) / 5 + 1
  let month := if monthFromMarch < 10 then monthFromMarch + 3 else monthFromMarch - 9
  ⟨yearOfEra + era * 400 + (if month ≤ 2 then 1 else 0), month, day⟩

/-- A number with zeros in front up to a width. -/
def padded (width n : Nat) : String :=
  let digits := natDigits n
  String.ofList (List.replicate (width - digits.length) '0' ++ digits)

/-- A point in time by its date and time of day; the year is as long as it needs to be. -/
def timestamp (seconds : Int) : String :=
  let date := Date.ofDays (seconds.fdiv 86400)
  let second := (seconds.fmod 86400).toNat
  String.ofList (intDigits date.year) ++ "-" ++ padded 2 date.month ++ "-" ++
    padded 2 date.day ++ " " ++ padded 2 (second / 3600) ++ ":" ++ padded 2 (second / 60 % 60) ++
    ":" ++ padded 2 (second % 60)

end Depict

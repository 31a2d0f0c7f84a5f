import Depict.Decimal.Numeral

/-!
# Spans of time

A span of time is a count of a unit. Years and months belong to the calendar,
where a month has no fixed length; the other units belong to the clock, and each
holds a whole number of every smaller one.
-/
namespace Depict
open Decimal

/-- What a span of time is counted in. -/
inductive TimeUnit
  | generic
  | year
  | month
  | week
  | day
  | hour
  | minute
  | second
  | millisecond
  | microsecond
  | nanosecond
  | picosecond
  | femtosecond
  | attosecond
  deriving DecidableEq

namespace TimeUnit

def sign : TimeUnit → String
  | generic => ""
  | year => "Y"
  | month => "M"
  | week => "W"
  | day => "D"
  | hour => "h"
  | minute => "m"
  | second => "s"
  | millisecond => "ms"
  | microsecond => "us"
  | nanosecond => "ns"
  | picosecond => "ps"
  | femtosecond => "fs"
  | attosecond => "as"

/-- The unit's name for a count. -/
def plural : TimeUnit → String
  | generic => "generic time units"
  | year => "years"
  | month => "months"
  | week => "weeks"
  | day => "days"
  | hour => "hours"
  | minute => "minutes"
  | second => "seconds"
  | millisecond => "milliseconds"
  | microsecond => "microseconds"
  | nanosecond => "nanoseconds"
  | picosecond => "picoseconds"
  | femtosecond => "femtoseconds"
  | attosecond => "attoseconds"

/-- Whether the unit belongs to the calendar. -/
def isCalendar : TimeUnit → Bool
  | year => true
  | month => true
  | _ => false

/-- The size of a unit, in months if it belongs to the calendar and else in attoseconds. -/
def size : TimeUnit → Nat
  | generic => 1
  | year => 12
  | month => 1
  | week => 604800 * Nat.pow 10 18
  | day => 86400 * Nat.pow 10 18
  | hour => 3600 * Nat.pow 10 18
  | minute => 60 * Nat.pow 10 18
  | second => Nat.pow 10 18
  | millisecond => Nat.pow 10 15
  | microsecond => Nat.pow 10 12
  | nanosecond => Nat.pow 10 9
  | picosecond => Nat.pow 10 6
  | femtosecond => Nat.pow 10 3
  | attosecond => 1

/-- How many of the unit make a day, as a fraction, for the units from the week to the
microsecond. -/
def perDay? : TimeUnit → Option (Nat × Nat)
  | week => some (1, 7)
  | day => some (1, 1)
  | hour => some (24, 1)
  | minute => some (1440, 1)
  | second => some (86400, 1)
  | millisecond => some (86400000, 1)
  | microsecond => some (86400000000, 1)
  | _ => none

end TimeUnit

structure TimeSpan where
  count : Int
  unit : TimeUnit
  deriving DecidableEq

namespace TimeSpan

/-- The count that stands for no span, the least one of sixty-four bits. -/
def absentCount : Int :=
  -(Nat.pow 2 63)

/-- A count as sixty-four bits hold it. -/
def wrap (count : Int) : Int :=
  count.bmod (Nat.pow 2 64)

def isAbsent (t : TimeSpan) : Bool :=
  t.count == absentCount

/-- The name of what the span becomes when it is read as a plain number and is none. -/
def obstacle? (t : TimeSpan) : Option String :=
  if t.isAbsent then some "NoneType"
  else match t.unit.perDay? with
    | none => none
    | some (per, days) =>
      let whole := (wrap (t.count * days)).fdiv per
      if whole < -999999999 || 999999999 < whole then none else some "datetime.timedelta"

def text (t : TimeSpan) : String :=
  if t.isAbsent then "NaT" else String.ofList (intDigits t.count) ++ " " ++ t.unit.plural

/-- The count and the sign of its unit, as arguments. -/
def arguments (t : TimeSpan) : String :=
  let count := if t.isAbsent then "'NaT'" else String.ofList (intDigits t.count)
  if t.unit = .generic then count else count ++ ",'" ++ t.unit.sign ++ "'"

end TimeSpan

end Depict

import Depict.Fault

/-!
# When spans of time are the same

Spans are compared in the finer of their units. A count without a unit takes the
unit of the other one. No unit of the calendar measures one of the clock, and a
unit that holds too many of the finer one is refused before the counts are looked at.
-/
namespace Depict

/-- How many of one unit another must not hold, to be compared with it. -/
def TimeUnit.reach : Nat :=
  Nat.pow 2 56

/-- The unit in which spans of two units are compared. -/
def TimeUnit.common (u v : TimeUnit) : Except Fault TimeUnit :=
  if u = .generic then .ok v
  else if v = .generic then .ok u
  else if u.isCalendar != v.isCalendar then .error (.unitsApart u v)
  else
    let finer := if u.size ≤ v.size then u else v
    if reach ≤ max u.size v.size / finer.size then .error (.unitsTooFar u v) else .ok finer

namespace TimeSpan

/-- The count of a finer unit of the same kind, as sixty-four bits hold it. -/
def countIn (t : TimeSpan) (u : TimeUnit) : Int :=
  if t.isAbsent || t.unit = .generic then t.count
  else wrap (t.count * (t.unit.size / u.size : Nat))

/-- Whether two spans are the same; none is the same as no span. -/
def same (s t : TimeSpan) : Except Fault Bool := do
  let u ← s.unit.common t.unit
  return s.countIn u == t.countIn u && s.countIn u != absentCount

/-- Whether two spans have the same length, however their units are related. -/
def sameLength (s t : TimeSpan) : Bool :=
  !s.isAbsent && !t.isAbsent && (s.unit = .generic) == (t.unit = .generic) &&
    s.unit.isCalendar == t.unit.isCalendar && s.count * s.unit.size == t.count * t.unit.size

end TimeSpan

end Depict

import Depict.Description.Recording
import Depict.Heap.Truth
import Depict.Show.Written

/-!
# Guards

Checks on what a caller hands over: that one of two values is there, that a
condition holds, that a value is not missing. What would be reported is prepared
before the check, so a name whose text fails is reported even for a value that is there.
-/
namespace Depict

/-- One of two values. -/
inductive Side
  | first
  | second
  deriving DecidableEq

/-- The first of two values that is there. -/
def firstPresent (first second : Value) : Except Fault Side :=
  if !first.isNull then .ok .first
  else if !second.isNull then .ok .second
  else .error (.missingValue .bothMissing)

namespace Heap

/-- Raises a fault unless the condition counts as true. -/
def require (h : Heap) (condition : Value) (r : Raised) : Except Fault Unit :=
  if h.isTrue condition then .ok () else .error (.raised r)

/-- Hands a value on unless it is missing, which is a fault that names it. -/
def checkPresent (h : Heap) (value name : Value) : Except Fault Value := do
  let shown ← h.runningText name
  if value.isNull then .error (.missingValue (.ofArgument shown name)) else .ok value

/-- What is wrong when the named setting is missing; a false context is left out. -/
def missingSetting (h : Heap) (name context : Value) : Except Fault Misconfiguration := do
  let name ← h.inspect name
  if h.isTrue context then return .missing name (some (← h.runningText context))
  else return .missing name none

/-- What is wrong when the named setting has a bad value; a false reason is left out. -/
def invalidSetting (h : Heap) (name value reason : Value) : Except Fault Misconfiguration := do
  let name ← h.runningText name
  let value ← h.inspect value
  if h.isTrue reason then return .invalid name value (some (← h.runningText reason))
  else return .invalid name value none

/-- What is wrong when a resource cannot be read; a false source is left out. -/
def unreadableResource (h : Heap) (resource source : Value) : Except Fault Misconfiguration := do
  let resource ← h.runningText resource
  if h.isTrue source then return .unreadable resource (some (← h.runningText source))
  else return .unreadable resource none

end Heap

end Depict

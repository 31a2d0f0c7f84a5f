import Depict.Show.Inspect
import Depict.Text.Casing

/-!
# Texts of values and descriptions

A value's own text is what it says of itself. A description says its label and,
between braces, its entries; what its entries hold is looked up when it is
written. A missing value is written as null there and a primitive one by its
canonical text.
-/
namespace Depict
open Decimal

def Instance.display (o : Instance) : Except Fault String :=
  match o.raises with
  | some r => .error (.raised r)
  | none => o.text.over (.ok o.inspect)

/-- A value in running text, where other values show as `shown` shows them. -/
def Value.runningWith (shown : Value → Except Fault String) : Value → Except Fault String
  | .atom a => a.runningText
  | v => shown v

/-- The canonical text of a value, where other values show as `shown` shows them. -/
def Value.primitiveWith (shown : Value → Except Fault String) : Value → Except Fault String
  | .atom a => a.primitiveText
  | v => shown v

def Value.writtenWith (shown : Value → Except Fault String) (v : Value) : Except Fault String :=
  if v.isNull then .ok "null"
  else if v.isPrimitive then v.primitiveWith shown
  else shown v

/-- An entry as it is written: its name and an equals sign, unless it has none, and its value. -/
def Entry.writtenWith (shown : Value → Except Fault String) (e : Entry) : Except Fault String :=
  if e.name.isNull then e.value.writtenWith shown
  else do
    let name ← e.name.runningWith shown
    let value ← e.value.writtenWith shown
    return name ++ "=" ++ value

/-- A description as it is written. Its entries are looked at in their order, and its label last. -/
def Description.writtenWith (shown : Value → Except Fault String) (d : Description) :
    Except Fault String := do
  let items ← d.visible.mapM (Entry.writtenWith shown)
  let label ← d.label.runningWith shown
  return label ++ "\x7b" ++ joined items ++ "\x7d"

namespace Heap

def displayMember (h : Heap) (m : Member) : Except Fault String :=
  if m.lowered then .ok (String.ofList (Text.lower m.name.toList))
  else match m.family, m.value with
    | .plain, _ => .ok (m.type ++ "." ++ m.name)
    | _, .atom a => a.display
    | _, v => h.inspect v

/-- The own text of a value, where `live` are the descriptions that are not being written yet. -/
def displayFrom (h : Heap) (live : List Address) : Value → Except Fault String
  | .atom a => a.display
  | .ref a =>
    match h.cell a with
    | .description d =>
      if a ∈ live then d.writtenWith fun v => displayFrom h (live.erase a) v
      else .error .endless
    | .object o => o.display
    | .member m => h.displayMember m
    | _ => h.inspect (.ref a)
termination_by live.length
decreasing_by
  have := List.length_erase_of_mem ‹a ∈ live›
  have := List.length_pos_of_mem ‹a ∈ live›
  omega

def display (h : Heap) (v : Value) : Except Fault String :=
  h.displayFrom h.addresses v

def runningText (h : Heap) (v : Value) : Except Fault String :=
  v.runningWith h.display

def primitiveText (h : Heap) (v : Value) : Except Fault String :=
  v.primitiveWith h.display

def writtenValue (h : Heap) (v : Value) : Except Fault String :=
  v.writtenWith h.display

def writtenEntry (h : Heap) (e : Entry) : Except Fault String :=
  e.writtenWith h.display

def inspectEntry (h : Heap) (e : Entry) : Except Fault String := do
  let name ← h.inspect e.name
  let value ← h.inspect e.value
  return "Entry(name=" ++ name ++ ", value=" ++ value ++ ")"

end Heap

end Depict

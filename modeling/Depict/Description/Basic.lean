import Depict.Value.Atom

/-!
# Entries and descriptions

A description collects entries under a label. An entry is a named value, or a
bare value under the missing name.
-/
namespace Depict

/-- One line of a description. -/
structure Entry where
  name : Value
  value : Value
  deriving DecidableEq

def Entry.isNull (e : Entry) : Bool :=
  e.value.isNull

/-- A label with entries in the order of their adding, and whether entries without a value are left
out when it is written. -/
structure Description where
  label : Value
  entries : List Entry
  omitsNulls : Bool
  deriving DecidableEq

namespace Description

def empty (label : Value) : Description :=
  ⟨label, [], false⟩

/-- The description with one more entry at its end. -/
def push (d : Description) (e : Entry) : Description :=
  { d with entries := d.entries ++ [e] }

/-- The description that leaves out entries without a value. -/
def omitNulls (d : Description) : Description :=
  { d with omitsNulls := true }

def visible (d : Description) : List Entry :=
  d.entries.filter fun e => !(d.omitsNulls && e.isNull)

theorem visible_push_of_hidden {d : Description} {e : Entry} (ho : d.omitsNulls = true)
    (he : e.isNull = true) : (d.push e).visible = d.visible := by
  simp [visible, push, ho, he]

theorem visible_push_of_shown {d : Description} {e : Entry}
    (h : (d.omitsNulls && e.isNull) = false) : (d.push e).visible = d.visible ++ [e] := by
  have h := Bool.and_eq_false_iff.mp h
  simpa [visible, push, List.filter_append] using h

end Description

end Depict

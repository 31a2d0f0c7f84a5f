import Depict.Description.Basic
import Depict.Show.Plain

/-!
# Recording values

A primitive value is put into a description as the text it has at that moment,
and any other value as itself. A named entry must have a name; a value without
one is recorded bare.
-/
namespace Depict

/-- What a description keeps of a value. -/
def Value.recorded : Value → Except Fault Value
  | .atom a => if a.isPrimitive then a.primitiveText.map Value.text else .ok (.atom a)
  | v => .ok v

/-- Hands a value on unless it is missing, which is a fault that names the argument. -/
def Value.required (v : Value) (argument : String) : Except Fault Value :=
  if v.isNull then .error (.missingValue (.ofArgument argument (.text argument))) else .ok v

namespace Description

/-- The description with one more entry, of the value as it is kept. -/
def record (d : Description) (name value : Value) : Except Fault Description :=
  value.recorded.map fun kept => d.push ⟨name, kept⟩

def add (d : Description) (name value : Value) : Except Fault Description := do
  let name ← name.required "name"
  d.record name value

def addValue (d : Description) (value : Value) : Except Fault Description :=
  d.record .null value

def construct (label : Value) : Except Fault Description :=
  (label.required "label").map empty

end Description

end Depict

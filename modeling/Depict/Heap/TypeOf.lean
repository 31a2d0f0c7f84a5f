import Depict.Heap.Basic

/-!
# The type of a value

Every value has a type with a name. The simple name of the type labels a
description of the value, unless the value is itself a text of some kind, which
is then the label.
-/
namespace Depict

/-- A type that is always there. -/
def TypeName.builtin (path : String) : TypeName :=
  ⟨.name "builtins", path⟩

/-- The module of the sized numbers' types. -/
def TypeName.sizedModule : ModuleTag :=
  .name "numpy"

def Atom.typeOf : Atom → TypeName
  | null => .builtin "NoneType"
  | bool _ => .builtin "bool"
  | int _ => .builtin "int"
  | float _ => .builtin "float"
  | complex _ => .builtin "complex"
  | text _ => .builtin "str"
  | bytes _ => .builtin "bytes"
  | sized n => ⟨TypeName.sizedModule, n.typeName⟩
  | sizedText _ => ⟨TypeName.sizedModule, "str_"⟩
  | derivedInt _ t => ⟨.absent, t.name⟩
  | derivedFloat _ t => ⟨.absent, t.name⟩
  | derivedText _ t => ⟨.absent, t.name⟩

def Cell.typeOf : Cell → TypeName
  | list _ => .builtin "list"
  | tuple _ => .builtin "tuple"
  | dict _ => .builtin "dict"
  | set _ => .builtin "set"
  | object o => o.type
  | type _ none => .builtin "type"
  | type _ (some t) => t
  | member m => ⟨.absent, m.type⟩
  | description _ => ⟨.absent, "ToStringHelper"⟩

namespace Heap

def typeOf (h : Heap) : Value → TypeName
  | .atom a => a.typeOf
  | .ref a => (h.cell a).typeOf

/-- The characters of a value that is a text of some kind. -/
def characters? (h : Heap) : Value → Option String
  | .atom a => a.characters?
  | .ref a =>
    match h.cell a with
    | .member ⟨.text, _, _, .atom b, _⟩ => b.characters?
    | _ => none

/-- The label of a description of the value. -/
def labelOf (h : Heap) (subject : Value) : Value :=
  match h.characters? subject with
  | some _ => subject
  | none => .text (h.typeOf subject).simple

end Heap

/-- The name of a type in a complaint about a value. -/
def TypeName.inComplaint (t : TypeName) : String :=
  if t.module = sizedModule then "numpy." ++ t.path
  else String.ofList (Text.afterLast '.' t.path.toList)

end Depict

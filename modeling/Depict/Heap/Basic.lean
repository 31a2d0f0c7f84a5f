import Depict.Description.Basic
import Depict.Fault
import Depict.TypeName

/-!
# Objects

Lists, tuples, dictionaries and sets of values, plain objects, types, members of
enumerations and descriptions are kept in a heap, each at its address. Only the
heap changes: a reference to an object shows what the object is when it is looked at.
-/
namespace Depict

/-- A plain object: its type, its own text, how it shows inside other values, and the fault that it
raises instead of giving its text. -/
structure Instance where
  type : TypeName
  text : OwnText
  shown : Option String
  raises : Option Raised
  deriving DecidableEq

/-- What the members of an enumeration are besides members. -/
inductive Family
  | plain
  | number
  | text
  deriving DecidableEq

/-- A member of an enumeration; `lowered` members give their name in lower case as their text. -/
structure Member where
  family : Family
  type : String
  name : String
  value : Value
  lowered : Bool
  deriving DecidableEq

/-- What is kept at an address. -/
inductive Cell
  | list (items : List Value)
  | tuple (items : List Value)
  | dict (pairs : List (Value × Value))
  | set (items : List Value)
  | object (o : Instance)
  /-- A type, and the type it is itself of, if that is a declared one. -/
  | type (t : TypeName) (of : Option TypeName)
  | member (m : Member)
  | description (d : Description)
  deriving DecidableEq

/-- The objects in the order of their making. -/
structure Heap where
  cells : List Cell
  deriving DecidableEq

namespace Heap

def empty : Heap := ⟨[]⟩

/-- The object kept outside every heap, which no reference of a heap means. -/
def stranger : Cell :=
  .object ⟨⟨.absent, "object"⟩, .inherited, none, none⟩

def cell (h : Heap) (a : Address) : Cell :=
  h.cells.getD a stranger

def addresses (h : Heap) : List Address :=
  List.range h.cells.length

/-- The heap with one more object, and the address of that. -/
def alloc (h : Heap) (c : Cell) : Heap × Address :=
  (⟨h.cells ++ [c]⟩, h.cells.length)

def set (h : Heap) (a : Address) (c : Cell) : Heap :=
  ⟨h.cells.set a c⟩

theorem cell_alloc_of_lt {h : Heap} {c : Cell} {a : Address} (ha : a < h.cells.length) :
    (h.alloc c).1.cell a = h.cell a := by
  simp [alloc, cell, List.getElem?_append_left ha]

theorem cell_alloc_self (h : Heap) (c : Cell) : (h.alloc c).1.cell (h.alloc c).2 = c := by
  simp [alloc, cell]

theorem cell_set_self {h : Heap} {a : Address} (c : Cell) (ha : a < h.cells.length) :
    (h.set a c).cell a = c := by
  simp [set, cell, ha]

theorem cell_set_of_ne {h : Heap} {a b : Address} (c : Cell) (hab : a ≠ b) :
    (h.set a c).cell b = h.cell b := by
  simp [set, cell, hab]

@[simp] theorem mem_addresses {h : Heap} {a : Address} :
    a ∈ h.addresses ↔ a < h.cells.length := by
  simp [addresses]

end Heap

end Depict

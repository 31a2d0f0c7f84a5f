import Depict.Heap.Basic

/-!
# Which values count as true

The missing value, false, zeros, empty texts and bytes and empty containers count
as false; a number that is none, every plain object and every type count as true.
A member of an enumeration of numbers or texts counts as its value does.
-/
namespace Depict
open Decimal

/-- Whether an atom counts as true. -/
def Atom.isTrue : Atom → Bool
  | null => false
  | bool b => b
  | int n => n != 0
  | float x => !x.isZero
  | complex z => !(z.re.isZero && z.im.isZero)
  | text s => !s.isEmpty
  | bytes bs => !bs.isEmpty
  | sized n => n.isTrue
  | sizedText s => !s.isEmpty
  | derivedInt n _ => n != 0
  | derivedFloat x _ => !x.isZero
  | derivedText s _ => !s.isEmpty

def Heap.isTrue (h : Heap) : Value → Bool
  | .atom a => a.isTrue
  | .ref a =>
    match h.cell a with
    | .list items => !items.isEmpty
    | .tuple items => !items.isEmpty
    | .dict pairs => !pairs.isEmpty
    | .set items => !items.isEmpty
    | .member ⟨.plain, _, _, _, _⟩ => true
    | .member ⟨_, _, _, .atom b, _⟩ => b.isTrue
    | _ => true

end Depict

import Depict.Fault
import Depict.Text.Trim

/-!
# Atoms as text

An atom shows in three ways: by its own text, by its inner form inside another
value, where texts are quoted and sized numbers name their type, and, if it is
primitive, by its canonical text, which is what a description keeps of it.
-/
namespace Depict
open Decimal Text

/-- A whole number in decimal; one that is too long cannot be written. -/
def wholeText (n : Int) : Except Fault String :=
  match intText? n with
  | some s => .ok s
  | none => .error .unwritable

/-- The text of a derived value, whose base has the text `base`. -/
def OwnText.over (base : Except Fault String) : OwnText → Except Fault String
  | inherited => base
  | given s => .ok s
  | mistyped t => .error (.notText t)

def boolText (b : Bool) : String :=
  if b then "True" else "False"

/-- How a sized text shows: the null characters at its end only fill it up. -/
def unpadded (s : String) : String :=
  String.ofList (dropEnd (· == '\x00') s.toList)

namespace Atom

def display : Atom → Except Fault String
  | null => .ok "None"
  | bool b => .ok (boolText b)
  | int n => wholeText n
  | float x => .ok x.text
  | complex z => .ok z.text
  | text s => .ok s
  | bytes bs => .ok (quoteBytes bs)
  | sized n => .ok n.display
  | sizedText s => .ok (unpadded s)
  | derivedInt n t => t.text.over (wholeText n)
  | derivedFloat x t => t.text.over (.ok x.text)
  | derivedText s t => t.text.over (.ok s)

/-- The atom's form inside another value; derived values show their base there. -/
def inspect : Atom → Except Fault String
  | text s => .ok (quote s)
  | sized n => .ok n.inspect
  | sizedText s => .ok ("np.str_(" ++ quote (unpadded s) ++ ")")
  | derivedInt n _ => wholeText n
  | derivedFloat x _ => .ok x.text
  | derivedText s _ => .ok (quote s)
  | a => a.display

/-- The atom in running text, where sized binary numbers are written at full width. -/
def runningText : Atom → Except Fault String
  | sized n => .ok n.runningText
  | a => a.display

/-- Whether the atom is a plain truth value or number that is not complex, or a sized number. -/
def isPrimitive : Atom → Bool
  | bool _ => true
  | int _ => true
  | float _ => true
  | sized _ => true
  | _ => false

/-- The canonical text: truth values in lower case, spans of time by their number, binary numbers by
their shortest digits, and anything else by its own text. -/
def primitiveText : Atom → Except Fault String
  | bool b => .ok (if b then "true" else "false")
  | sized (.truth b) => .ok (if b then "true" else "false")
  | sized (.timeSpan t) =>
    match t.obstacle? with
    | none => .ok (String.ofList (intDigits t.count))
    | some typeName => .error (.notNumber typeName)
  | derivedFloat x _ => .ok x.text
  | a => a.display

end Atom

/-- Whether a value is primitive; objects never are. -/
def Value.isPrimitive : Value → Bool
  | .atom a => a.isPrimitive
  | .ref _ => false

/-- Texts with a comma and a space between them. -/
def joined : List String → String
  | [] => ""
  | [s] => s
  | s :: t :: rest => s ++ ", " ++ joined (t :: rest)

end Depict

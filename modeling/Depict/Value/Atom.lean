import Depict.Text.Quoted
import Depict.Value.Sized

/-!
# Values

A value is an atom, which holds all there is to it, or a reference to an object
that is kept at an address and may change there. Atoms are the missing value,
truth values, numbers, texts and bytes, numbers of a machine size, and values of
types derived from numbers and texts, which may show a text of their own.
-/
namespace Depict
open Decimal

/-- Where an object is kept. -/
abbrev Address := Nat

/-- What a derived type or an object says its text is. -/
inductive OwnText
  | inherited
  | given (text : String)
  /-- The answer is no text but a value of the named type. -/
  | mistyped (typeName : String)
  deriving DecidableEq

/-- A type derived from numbers or texts, by its name and by what its values say their text is. -/
structure DerivedType where
  name : String
  text : OwnText
  deriving DecidableEq

/-- A value that is no object. -/
inductive Atom
  | null
  | bool (b : Bool)
  | int (n : Int)
  | float (x : Binary .double)
  | complex (z : ComplexBinary .double)
  | text (s : String)
  | bytes (bs : List UInt8)
  | sized (n : Sized)
  | sizedText (s : String)
  | derivedInt (n : Int) (type : DerivedType)
  | derivedFloat (x : Binary .double) (type : DerivedType)
  | derivedText (s : String) (type : DerivedType)
  deriving DecidableEq

/-- The characters of a text of any kind. -/
def Atom.characters? : Atom → Option String
  | text s => some s
  | sizedText s => some s
  | derivedText s _ => some s
  | _ => none

/-- A value: complete in itself, or an object by its address. -/
inductive Value
  | atom (a : Atom)
  | ref (address : Address)
  deriving DecidableEq

namespace Value

@[match_pattern] abbrev null : Value := .atom .null

@[match_pattern] abbrev text (s : String) : Value := .atom (.text s)

def isNull : Value → Bool
  | null => true
  | _ => false

end Value

end Depict

import Depict.Value.TimeSpan

/-!
# Sized numbers

Numbers of a fixed machine size: truth values, whole numbers of eight to
sixty-four bits, binary and complex numbers, and spans of time counted in a unit.
All of them count as primitive, a span of time included.
-/
namespace Depict
open Decimal

/-- A number of a fixed machine size. -/
inductive Sized
  | truth (b : Bool)
  | whole (signed : Bool) (bits : Nat) (n : Int)
  | binary (w : Width) (x : Binary w)
  | complex (w : Width) (z : ComplexBinary w)
  | timeSpan (t : TimeSpan)
  deriving DecidableEq

namespace Sized

/-- The name of a binary format by its bits. -/
def widthText : Width → String
  | .half => "16"
  | .single => "32"
  | .double => "64"

/-- The name of a complex format by the bits of both parts. -/
def doubleWidthText : Width → String
  | .half => "32"
  | .single => "64"
  | .double => "128"

def typeName : Sized → String
  | truth _ => "bool"
  | whole signed bits _ => (if signed then "int" else "uint") ++ String.ofList (natDigits bits)
  | binary w _ => "float" ++ widthText w
  | complex w _ => "complex" ++ doubleWidthText w
  | timeSpan _ => "timedelta64"

def display : Sized → String
  | truth b => if b then "True" else "False"
  | whole _ _ n => String.ofList (intDigits n)
  | binary _ x => x.text
  | complex _ z => z.text
  | timeSpan t => t.text

/-- The number as it shows inside another value, with its type. -/
def inspect : Sized → String
  | truth b => if b then "np.True_" else "np.False_"
  | s@(complex _ z) => "np." ++ s.typeName ++ z.bracketed
  | s@(timeSpan t) => "np." ++ s.typeName ++ "(" ++ t.arguments ++ ")"
  | s => "np." ++ s.typeName ++ "(" ++ s.display ++ ")"

/-- The number in running text: binary numbers of any width are written there at the full one. -/
def runningText : Sized → String
  | binary _ x => x.widen.text
  | complex _ z => z.widen.text
  | s => s.display

def isTrue : Sized → Bool
  | truth b => b
  | whole _ _ n => n != 0
  | binary _ x => !x.isZero
  | complex _ z => !(z.re.isZero && z.im.isZero)
  | timeSpan t => t.count != 0

end Sized

end Depict

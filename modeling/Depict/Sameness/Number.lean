import Depict.Decimal.Rounding
import Depict.Sameness.TimeSpan

/-!
# When numbers and texts are the same

Plain numbers are the same when they have the same value. Beside a sized number,
a whole number of machine size is first rounded as soon as the other one is binary,
and a plain number takes the format of the sized one if that is binary. A number
of a derived type keeps its own format. Texts are compared by their characters,
and a number that is none is not the same as anything.
-/
namespace Depict
open Decimal

/-- A number as it takes part in a comparison. -/
inductive Amount
  /-- A whole number that fits into sixty-four bits with its sign. -/
  | whole (n : Int)
  /-- A whole number of sixty-four bits without a sign, which is no count of time. -/
  | unsigned (n : Int)
  /-- A larger whole number, which is never rounded. -/
  | large (n : Int)
  /-- A binary number, or a complex one by its parts. -/
  | parts (re im : Reading)

namespace Amount

/-- Whether a whole number fits into sixty-four bits with its sign. -/
def isWord (n : Int) : Bool :=
  -(Nat.pow 2 63) ≤ n && n < Nat.pow 2 63

/-- A whole number by its size. -/
def ofInt (n : Int) : Amount :=
  if isWord n then whole n
  else if 0 ≤ n && n < Nat.pow 2 64 then unsigned n
  else large n

/-- A binary number. -/
def ofReading (r : Reading) : Amount :=
  parts r (.ofInt 0)

/-- Whether the number is binary or complex. -/
def isBinary : Amount → Bool
  | parts _ _ => true
  | _ => false

/-- The parts of the number; a whole one of machine size is rounded if `rounds` says so. -/
def readings (rounds : Bool) : Amount → Reading × Reading
  | whole n => (if rounds then (Reading.ofInt n).roundTo .double else .ofInt n, .ofInt 0)
  | unsigned n => (if rounds then (Reading.ofInt n).roundTo .double else .ofInt n, .ofInt 0)
  | large n => (.ofInt n, .ofInt 0)
  | parts re im => (re, im)

/-- Whether two numbers have the same value. -/
def sameValue (a b : Amount) : Bool :=
  let (p, q) := (a.readings false, b.readings false)
  p.1.same q.1 && p.2.same q.2

/-- Whether two numbers are the same when at least one of them is sized. -/
def same (a b : Amount) : Bool :=
  let (p, q) := (a.readings b.isBinary, b.readings a.isBinary)
  p.1.same q.1 && p.2.same q.2

end Amount

/-- What an atom is in a comparison with a sized number. -/
inductive Operand
  | number (n : Amount)
  | span (t : TimeSpan)
  | other

namespace Operand

/-- Whether a span of time has this count. -/
def sameCount (t : TimeSpan) : Amount → Bool
  | .whole n => !t.isAbsent && t.count == n
  | _ => false

/-- Whether two operands are the same. -/
def same : Operand → Operand → Except Fault Bool
  | number a, number b => .ok (a.same b)
  | number a, span t => .ok (sameCount t a)
  | span t, number a => .ok (sameCount t a)
  | span s, span t => s.same t
  | _, _ => .ok false

/-- The unit that the operand brings to a comparison of spans of time, if it can take part in
one. -/
def unit? : Operand → Option TimeUnit
  | span t => some t.unit
  | number (.whole _) => some .generic
  | _ => none

end Operand

/-- The format of a sized number, if it is binary or complex. -/
def Sized.width? : Sized → Option Width
  | binary w _ => some w
  | complex w _ => some w
  | _ => none

/-- The format in which a sized number is compared with a plain complex one, if it is binary. -/
def Sized.complexWidth? : Sized → Option Width
  | binary .half _ => some .single
  | s => s.width?

/-- A sized number in a comparison. -/
def Sized.operand : Sized → Operand
  | truth b => .number (.whole (if b then 1 else 0))
  | whole signed bits n => .number (if signed || bits < 64 then .whole n else .unsigned n)
  | binary _ x => .number (.ofReading x.read)
  | complex _ z => .number (.parts z.re.read z.im.read)
  | timeSpan t => .span t

/-- A whole number beside a sized one: it must fit into a machine word beside a truth value or a
span of time, and beside a binary number it goes through the widest format. -/
def Sized.besideInt (s : Sized) (n : Int) : Except Fault Operand :=
  match s with
  | truth _ => if Amount.isWord n then .ok (.number (.whole n)) else .error .beyondWord
  | timeSpan _ => if Amount.isWord n then .ok (.number (.whole n)) else .error .beyondSpan
  | whole _ _ _ => .ok (.number (.ofInt n))
  | s =>
    match (Reading.ofInt n).roundTo .double with
    | .infinite _ => .error .beyondBinary
    | r => .ok (.number (.ofReading (r.adjust s.width?)))

/-- The plain value that a sized number stands for; a duration is none. -/
def Sized.plain? : Sized → Option Atom
  | truth b => some (.bool b)
  | whole _ _ n => some (.int n)
  | binary _ x => some (.float x.widen)
  | complex _ z => some (.complex z.widen)
  | timeSpan t =>
    if t.isAbsent then some .null
    else if t.obstacle?.isNone then some (.int t.count)
    else none

namespace Atom

/-- An atom in a comparison, in its own format. -/
def operand : Atom → Operand
  | bool b => .number (.whole (if b then 1 else 0))
  | int n => .number (.ofInt n)
  | float x => .number (.ofReading x.read)
  | complex z => .number (.parts z.re.read z.im.read)
  | derivedInt n _ => .number (.ofInt n)
  | derivedFloat x _ => .number (.ofReading x.read)
  | sized n => n.operand
  | _ => .other

/-- An atom beside a sized number, whose format a plain number takes. -/
def operandBeside (s : Sized) : Atom → Except Fault Operand
  | int n => s.besideInt n
  | float x => .ok (.number (.ofReading (x.read.adjust s.width?)))
  | complex z =>
    let w := s.complexWidth?
    .ok (.number (.parts (z.re.read.adjust w) (z.im.read.adjust w)))
  | a => .ok a.operand

/-- Whether two atoms neither of which is a sized number are the same. -/
def samePlain (a b : Atom) : Bool :=
  match a.operand, b.operand with
  | .number m, .number n => m.sameValue n
  | .other, .other =>
    match a.characters?, b.characters? with
    | some s, some t => s == t
    | none, none => a == b
    | _, _ => false
  | _, _ => false

/-- Whether two atoms are the same. -/
def same : Atom → Atom → Except Fault Bool
  | sized s, b => do s.operand.same (← b.operandBeside s)
  | a, sized s => do s.operand.same (← a.operandBeside s)
  | a, b => .ok (a.samePlain b)

/-- Whether two atoms are the same key: numbers must have the same value, without any rounding, and
only spans of the same length are compared at all. -/
def sameKey : Atom → Atom → Except Fault Bool
  | sized (.timeSpan s), sized (.timeSpan t) => if s.sameLength t then s.same t else .ok false
  | a, b => .ok (a.samePlain b)

end Atom

end Depict

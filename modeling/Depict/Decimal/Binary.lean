/-!
# Binary numbers

The three interchange formats of binary floating point. A pattern is a sign bit,
a biased exponent and a stored significand; it reads as a signed whole number
times a power of two, as an infinity or as no number.
-/
namespace Depict.Decimal

/-- The formats, by the room they give to a number. -/
inductive Width
  | half
  | single
  | double
  deriving DecidableEq

namespace Width

def significandBits : Width → Nat
  | half => 10
  | single => 23
  | double => 52

def exponentBits : Width → Nat
  | half => 5
  | single => 8
  | double => 11

/-- Bits of a pattern. -/
def size (w : Width) : Nat :=
  1 + w.exponentBits + w.significandBits

/-- What is added to the exponent of a number in its pattern. -/
def bias (w : Width) : Nat :=
  Nat.pow 2 (w.exponentBits - 1) - 1

end Width

/-- A number of a binary format, by its pattern. -/
structure Binary (w : Width) where
  pattern : BitVec w.size
  deriving DecidableEq

/-- What a pattern stands for: a finite number is `significand * 2 ^ exponent`, with its sign. -/
inductive Reading
  | nan
  | infinite (negative : Bool)
  | finite (negative : Bool) (significand : Nat) (exponent : Int)
  deriving DecidableEq

namespace Binary
variable {w : Width}

def negative (x : Binary w) : Bool :=
  x.pattern.msb

def biasedExponent (x : Binary w) : Nat :=
  x.pattern.toNat / Nat.pow 2 w.significandBits % Nat.pow 2 w.exponentBits

def storedSignificand (x : Binary w) : Nat :=
  x.pattern.toNat % Nat.pow 2 w.significandBits

/-- The number that a pattern stands for; a significand is stored without its leading one, except
below the least normal number. -/
def read (x : Binary w) : Reading :=
  let e := x.biasedExponent
  let f := x.storedSignificand
  if e = Nat.pow 2 w.exponentBits - 1 then
    if f = 0 then .infinite x.negative else .nan
  else if e = 0 then .finite x.negative f (1 - w.bias - w.significandBits)
  else .finite x.negative (Nat.pow 2 w.significandBits + f) (e - w.bias - w.significandBits)

/-- Whether the gap to the next number below is half the gap to the next above, which is so at the
powers of two above the least normal number. -/
def narrowBelow (x : Binary w) : Bool :=
  x.storedSignificand == 0 && 1 < x.biasedExponent

/-- Whether the pattern reads as a zero of either sign. -/
def isZero (x : Binary w) : Bool :=
  x.biasedExponent == 0 && x.storedSignificand == 0

/-- The same number in the widest format. -/
def widen (x : Binary w) : Binary .double :=
  let sign := if x.negative then Nat.pow 2 63 else 0
  let magnitude := match x.read with
    | .nan => 2047 * Nat.pow 2 52 + Nat.pow 2 51
    | .infinite _ => 2047 * Nat.pow 2 52
    | .finite _ 0 _ => 0
    | .finite _ (m + 1) q =>
      let shift := 52 - Nat.log2 (m + 1)
      if w = .double then x.pattern.toNat % Nat.pow 2 63
      else (q - shift + 1074).toNat * Nat.pow 2 52 + (m + 1) * Nat.pow 2 shift
  ⟨BitVec.ofNat _ (sign + magnitude)⟩

end Binary

end Depict.Decimal

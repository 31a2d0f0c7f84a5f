import Depict.Decimal.Shortest

/-!
# Written numbers

A whole number is written in decimal up to a fixed length. A binary number is
written with its shortest digits: positionally from one ten-thousandth up to a
limit that depends on its format, and with a power of ten beyond.
-/
namespace Depict.Decimal

def natDigits (n : Nat) : List Char :=
  Nat.toDigits 10 n

def intDigits (n : Int) : List Char :=
  if n < 0 then '-' :: natDigits n.natAbs else natDigits n.natAbs

/-- The most digits a whole number is written with. -/
def digitLimit : Nat := 4300

/-- A whole number in decimal, unless it is too long. -/
def intText? (n : Int) : Option String :=
  if n.natAbs < Nat.pow 10 digitLimit then some (String.ofList (intDigits n)) else none

/-- Numbers of a format are written positionally below this limit. -/
def Width.positionalLimit : Width → Nat
  | .half => Nat.pow 10 3
  | .single => Nat.pow 10 6
  | .double => Nat.pow 10 16

namespace Numeral

/-- The exponent that stands behind the first digit. -/
def scale (d : Numeral) : Int :=
  (natDigits d.significand).length + d.exponent - 1

/-- The number without a power of ten; `whole` follows a number that has no fraction. -/
def positional (d : Numeral) (whole : List Char) : List Char :=
  let digits := natDigits d.significand
  let point := digits.length + d.exponent
  if point ≤ 0 then '0' :: '.' :: List.replicate (-point).toNat '0' ++ digits
  else if d.exponent < 0 then
    digits.take point.toNat ++ '.' :: digits.drop point.toNat
  else digits ++ List.replicate d.exponent.toNat '0' ++ whole

/-- The number with a power of ten of a sign and at least two digits. -/
def scientific (d : Numeral) : List Char :=
  let mantissa := match natDigits d.significand with
    | [] => []
    | [c] => [c]
    | c :: cs => c :: '.' :: cs
  let power := natDigits d.scale.natAbs
  mantissa ++ 'e' :: (if d.scale < 0 then '-' else '+') ::
    (if power.length < 2 then '0' :: power else power)

end Numeral

namespace Binary
variable {w : Width}

/-- The number without its sign. -/
def magnitude (x : Binary w) (whole : List Char) : List Char :=
  match x.read with
  | .nan => ['n', 'a', 'n']
  | .infinite _ => ['i', 'n', 'f']
  | .finite _ 0 _ => '0' :: whole
  | .finite _ (m + 1) q =>
    let span := Span.ofBinary (m + 1) q x.narrowBelow
    if span.between w.positionalLimit then span.shortest.positional whole
    else span.shortest.scientific

/-- Whether a minus stands before the number; a pattern that is no number has no sign. -/
def hasMinus (x : Binary w) : Bool :=
  x.negative && x.read != .nan

/-- The number; `whole` follows it if it has no fraction and no power of ten. -/
def chars (x : Binary w) (whole : List Char) : List Char :=
  if x.hasMinus then '-' :: x.magnitude whole else x.magnitude whole

/-- The number as it stands by itself, where a whole number shows a zero behind the point. -/
def text (x : Binary w) : String :=
  String.ofList (x.chars ['.', '0'])

end Binary

/-- A complex number by its two parts. -/
structure ComplexBinary (w : Width) where
  re : Binary w
  im : Binary w
  deriving DecidableEq

namespace ComplexBinary
variable {w : Width}

/-- Whether the imaginary part is written alone: the real part is zero without a minus. -/
def isImaginary (z : ComplexBinary w) : Bool :=
  z.re.isZero && !z.re.negative

/-- Both parts with a sign between them, or the imaginary part alone. -/
def innerChars (z : ComplexBinary w) : List Char :=
  if z.isImaginary then z.im.chars [] ++ ['j']
  else z.re.chars [] ++ (if z.im.hasMinus then '-' else '+') :: z.im.magnitude [] ++ ['j']

/-- The number, in brackets unless it is written by its imaginary part alone. -/
def text (z : ComplexBinary w) : String :=
  String.ofList (if z.isImaginary then z.innerChars else '(' :: z.innerChars ++ [')'])

def bracketed (z : ComplexBinary w) : String :=
  String.ofList ('(' :: z.innerChars ++ [')'])

def widen (z : ComplexBinary w) : ComplexBinary .double :=
  ⟨z.re.widen, z.im.widen⟩

end ComplexBinary

end Depict.Decimal

import Depict.Decimal.Binary

/-!
# Rounding to a binary format

A number is rounded to the nearest one of a format, half-way cases to the even
significand, and numbers beyond the greatest finite one by half a step or more to
an infinity.
-/
namespace Depict.Decimal

/-- Less than half of `2 ^ bits` is dropped and more is rounded up; a half goes to the even
quotient. -/
def roundedShift (n bits : Nat) : Nat :=
  let quotient := n / Nat.pow 2 bits
  let rest := 2 * (n % Nat.pow 2 bits)
  if rest < Nat.pow 2 bits then quotient
  else if Nat.pow 2 bits < rest then quotient + 1
  else quotient + quotient % 2

/-- The number of the format that is nearest to a reading. -/
def Reading.roundTo (w : Width) : Reading → Reading
  | .finite negative m q =>
    let lowest : Int := 1 - w.bias - w.significandBits
    let excess := max (Nat.log2 m - w.significandBits : Nat) (lowest - q).toNat
    let n := roundedShift m excess
    let top : Int := w.bias + 1
    if top ≤ Nat.log2 n + (q + excess) then .infinite negative
    else .finite negative n (q + excess)
  | r => r

/-- The reading in a format, if there is one to round to. -/
def Reading.adjust (r : Reading) : Option Width → Reading
  | some w => r.roundTo w
  | none => r

/-- Whether two readings have the same value; the two zeros have. -/
def Reading.same : Reading → Reading → Bool
  | .infinite a, .infinite b => a == b
  | .finite a m q, .finite b n r =>
    let low := min q r
    let left := m * Nat.pow 2 (q - low).toNat
    left == n * Nat.pow 2 (r - low).toNat && (a == b || left == 0)
  | _, _ => false

def Reading.ofInt (n : Int) : Reading :=
  .finite (n < 0) n.natAbs 0

end Depict.Decimal

import Depict.Decimal.Binary

/-!
# The shortest decimal that reads back

A positive binary number is a whole number of units of a power of ten. On each
decimal grid, from the coarsest to the finest, the two neighbours of the number
are tried; the first grid on which one of them rounds to the number gives the
decimal. Of two such neighbours the nearer one is taken, and the even one when
they are equally near.
-/
namespace Depict.Decimal

/-- The number `significand * 10 ^ exponent`. -/
structure Numeral where
  significand : Nat
  exponent : Int
  deriving DecidableEq

/-- A positive binary number in units of `10 ^ -places`: its amount, the distance to the next number
above, whether the distance below is half of that, and whether a number half-way to a neighbour
rounds to this one. -/
structure Span where
  amount : Nat
  step : Nat
  places : Nat
  narrow : Bool
  closed : Bool
  deriving DecidableEq

namespace Span

/-- The number `significand * 2 ^ exponent`; a half-way number goes to the even significand. -/
def ofBinary (significand : Nat) (exponent : Int) (narrow : Bool) : Span :=
  let even := significand % 2 == 0
  match exponent with
  | .ofNat k => ⟨significand * Nat.pow 2 k, Nat.pow 2 k, 0, narrow, even⟩
  | .negSucc k => ⟨significand * Nat.pow 5 (k + 1), Nat.pow 5 (k + 1), k + 1, narrow, even⟩

/-- Four times the lower end of the numbers that round to this one. -/
def low (s : Span) : Nat :=
  4 * s.amount - if s.narrow then s.step else 2 * s.step

/-- Four times the upper end of the numbers that round to this one. -/
def high (s : Span) : Nat :=
  4 * s.amount + 2 * s.step

/-- Whether `n` units round to this number. -/
def holds (s : Span) (n : Nat) : Bool :=
  if s.closed then s.low ≤ 4 * n && 4 * n ≤ s.high
  else s.low < 4 * n && 4 * n < s.high

/-- The multiple of `10 ^ zeros` next to this number that rounds to it, by its quotient. -/
def neighbour? (s : Span) (zeros : Nat) : Option Nat :=
  let grid := Nat.pow 10 zeros
  let below := s.amount / grid
  let above := below + 1
  match s.holds (below * grid), s.holds (above * grid) with
  | false, false => none
  | true, false => some below
  | false, true => some above
  | true, true =>
    let past := 2 * (s.amount - below * grid)
    if past < grid then some below
    else if grid < past then some above
    else if below % 2 = 0 then some below else some above

def digitCount (s : Span) : Nat :=
  (Nat.toDigits 10 s.amount).length

/-- The decimal with the fewest digits that rounds to this number. -/
def shortest (s : Span) : Numeral :=
  let top := s.digitCount
  let found := (List.range (top + 1)).findSome? fun i =>
    (s.neighbour? (top - i)).map fun n => Numeral.mk n ((top - i : Nat) - (s.places : Int))
  found.getD ⟨s.amount, -(s.places : Int)⟩

/-- Whether the number lies between `10 ^ -4`, included, and `limit`, excluded. -/
def between (s : Span) (limit : Nat) : Bool :=
  Nat.pow 10 s.places ≤ s.amount * Nat.pow 10 4 && s.amount < limit * Nat.pow 10 s.places

theorem holds_amount (s : Span) (h : 0 < s.step) (ha : s.step ≤ s.amount) :
    s.holds s.amount = true := by
  unfold holds low high
  split <;> split <;> simp <;> omega

end Span

end Depict.Decimal

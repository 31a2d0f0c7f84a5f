import Depict.Decimal.Binary
import Mathlib.Algebra.Order.Field.Power
import Mathlib.Data.Rat.Cast.Order
import Mathlib.Tactic.Linarith
import Mathlib.Tactic.Ring

/-!
# The numbers of a format

A format has the whole multiples of its least power of two that its significands have room for, and
with each greater power of two those whose significand begins with a one. Its greatest exponent is
left aside here: rounding first takes the nearest of these numbers, and finds out then whether it is
too great. Between a number and the next one lies one unit of its last place, and below it as much,
or half of that where the power of two changes.
-/
namespace Depict.Decimal

/-- The number `m * 2 ^ e`. -/
def binaryValue (m : Nat) (e : Int) : ℚ :=
  m * 2 ^ e

namespace Width

/-- The least exponent of a format. -/
def lowest (w : Width) : Int :=
  1 - w.bias - w.significandBits

/-- `m * 2 ^ e` is how a format writes a number, be the exponent as great as it may. -/
structure IsNumber (w : Width) (m : Nat) (e : Int) : Prop where
  short : m < 2 ^ (w.significandBits + 1)
  lowest : w.lowest ≤ e
  normal : e = w.lowest ∨ 2 ^ w.significandBits ≤ m

/-- The number is a power of two above which the numbers lie further apart than below. -/
def IsNarrow (w : Width) (m : Nat) (e : Int) : Prop :=
  m = 2 ^ w.significandBits ∧ w.lowest < e

instance (w : Width) (m : Nat) (e : Int) : Decidable (w.IsNarrow m e) :=
  inferInstanceAs (Decidable (_ ∧ _))

end Width

variable {w : Width} {m m' : Nat} {e e' : Int}

theorem binaryValue_succ (m : Nat) (e : Int) : binaryValue (m + 1) e = binaryValue m e + 2 ^ e := by
  rw [binaryValue, binaryValue]
  push_cast
  ring

theorem binaryValue_lt_iff : binaryValue m e < binaryValue m' e ↔ m < m' := by
  rw [binaryValue, binaryValue, mul_lt_mul_iff_of_pos_right (zpow_pos two_pos e), Nat.cast_lt]

theorem binaryValue_le_iff : binaryValue m e ≤ binaryValue m' e ↔ m ≤ m' := by
  rw [← not_lt, ← not_lt, binaryValue_lt_iff]

theorem binaryValue_inj (h : binaryValue m e = binaryValue m' e) : m = m' :=
  le_antisymm (binaryValue_le_iff.mp h.le) (binaryValue_le_iff.mp h.ge)

theorem binaryValue_pow (m n : Nat) (e : Int) :
    binaryValue (m * 2 ^ n) e = binaryValue m (e + n) := by
  rw [binaryValue, binaryValue, zpow_add₀ (by norm_num), zpow_natCast]
  push_cast
  ring

/-- A number is a greater multiple of a smaller power of two. -/
theorem binaryValue_of_le (m : Nat) (h : e' ≤ e) :
    binaryValue m e = binaryValue (m * 2 ^ (e - e').toNat) e' := by
  rw [binaryValue_pow, Int.toNat_of_nonneg (by omega), add_sub_cancel]

theorem Width.two_dvd_pow (w : Width) : 2 ∣ 2 ^ w.significandBits :=
  dvd_pow_self 2 (by cases w <;> decide)

namespace Width.IsNumber

/-- With a smaller exponent a number would need a longer significand. -/
theorem long_of_lt (h : w.IsNumber m e) (hlow : w.lowest ≤ e') (hlt : e' < e) :
    2 ^ (w.significandBits + 1) ≤ m * 2 ^ (e - e').toNat := by
  have hnormal : 2 ^ w.significandBits ≤ m := h.normal.resolve_left (by omega)
  have htwo : 2 ^ 1 ≤ 2 ^ (e - e').toNat := Nat.pow_le_pow_right (by decide) (by omega)
  rw [pow_succ]
  exact Nat.mul_le_mul hnormal htwo

/-- A format writes a number in one way only. -/
theorem unique (h : w.IsNumber m e) (h' : w.IsNumber m' e')
    (heq : binaryValue m e = binaryValue m' e') : m = m' ∧ e = e' := by
  rcases lt_trichotomy e e' with hlt | rfl | hlt
  · rw [binaryValue_of_le m' hlt.le] at heq
    have hlong := h'.long_of_lt h.lowest hlt
    rw [← binaryValue_inj heq] at hlong
    exact absurd h.short (Nat.not_lt.mpr hlong)
  · exact ⟨binaryValue_inj heq, rfl⟩
  · rw [binaryValue_of_le m hlt.le] at heq
    have hlong := h.long_of_lt h'.lowest hlt
    rw [binaryValue_inj heq] at hlong
    exact absurd h'.short (Nat.not_lt.mpr hlong)

/-- Up to one unit of the last place above a number there is no other. -/
theorem succ_le (h : w.IsNumber m e) (h' : w.IsNumber m' e')
    (hlt : binaryValue m e < binaryValue m' e') : binaryValue (m + 1) e ≤ binaryValue m' e' := by
  rcases le_or_gt e e' with hle | hgt
  · rw [binaryValue_of_le m' hle] at hlt ⊢
    exact binaryValue_le_iff.mpr (binaryValue_lt_iff.mp hlt)
  · rw [binaryValue_of_le m hgt.le] at hlt
    have hlong := h.long_of_lt h'.lowest hgt
    have hshort := h'.short
    have hless := binaryValue_lt_iff.mp hlt
    omega

/-- One unit of the last place above a number is another, whose significand is even if the first one
is odd and odd if it is even. -/
theorem exists_next (h : w.IsNumber m e) : ∃ m' e', w.IsNumber m' e' ∧
    binaryValue m' e' = binaryValue (m + 1) e ∧ m' % 2 ≠ m % 2 := by
  have hshort := h.short
  have hlow := h.lowest
  have hpow := pow_succ 2 w.significandBits
  by_cases hfit : m + 1 < 2 ^ (w.significandBits + 1)
  · exact ⟨m + 1, e, ⟨hfit, hlow, h.normal.imp_right (by omega)⟩, rfl, by omega⟩
  · have heven := w.two_dvd_pow
    refine ⟨2 ^ w.significandBits, e + 1, ⟨by omega, by omega, .inr le_rfl⟩, ?_, by omega⟩
    have hfull : m + 1 = 2 ^ w.significandBits * 2 ^ 1 := by omega
    rw [hfull, binaryValue_pow, Nat.cast_one]

/-- Below every number but zero there is another, of which it is the next. -/
theorem exists_previous (h : w.IsNumber m e) (hm : 0 < m) : ∃ m' e', w.IsNumber m' e' ∧
    e' = (if w.IsNarrow m e then e - 1 else e) ∧ binaryValue (m' + 1) e' = binaryValue m e := by
  have hshort := h.short
  have hlow := h.lowest
  have hpow := pow_succ 2 w.significandBits
  by_cases hnarrow : w.IsNarrow m e
  · obtain ⟨rfl, hlt⟩ := hnarrow
    refine ⟨2 ^ (w.significandBits + 1) - 1, e - 1, ⟨by omega, by omega, .inr (by omega)⟩,
      (if_pos ⟨rfl, hlt⟩).symm, ?_⟩
    have hfull : 2 ^ (w.significandBits + 1) - 1 + 1 = 2 ^ w.significandBits * 2 ^ 1 := by omega
    rw [hfull, binaryValue_pow, Nat.cast_one, sub_add_cancel]
  · have hnormal : e = w.lowest ∨ 2 ^ w.significandBits ≤ m - 1 := by
      by_cases hbottom : e = w.lowest
      · exact .inl hbottom
      · have hle := h.normal.resolve_left hbottom
        have hne : m ≠ 2 ^ w.significandBits := fun heq => hnarrow ⟨heq, by omega⟩
        exact .inr (by omega)
    exact ⟨m - 1, e, ⟨by omega, hlow, hnormal⟩, (if_neg hnarrow).symm,
      by rw [Nat.sub_add_cancel hm]⟩

end Width.IsNumber

theorem Width.bias_pos (w : Width) : 0 < w.bias := by
  cases w <;> decide

theorem Width.two_mul_bias (w : Width) : 2 * w.bias + 2 = 2 ^ w.exponentBits := by
  cases w <;> rfl

namespace Binary
variable {x y : Binary w} {negative : Bool}

theorem storedSignificand_lt (x : Binary w) : x.storedSignificand < 2 ^ w.significandBits :=
  Nat.mod_lt _ (Nat.two_pow_pos _)

theorem biasedExponent_lt (x : Binary w) : x.biasedExponent < 2 ^ w.exponentBits :=
  Nat.mod_lt _ (Nat.two_pow_pos _)

theorem toNat_negative (x : Binary w) :
    x.negative.toNat = x.pattern.toNat / 2 ^ w.significandBits / 2 ^ w.exponentBits := by
  have hlt := x.pattern.isLt
  have hsize : w.size = w.significandBits + w.exponentBits + 1 := by
    rw [Width.size]
    omega
  rw [Nat.div_div_eq_div_mul, ← pow_add, negative, BitVec.msb_eq_decide]
  simp only [hsize, Nat.add_sub_cancel, pow_succ] at hlt ⊢
  symm
  by_cases hhigh : 2 ^ (w.significandBits + w.exponentBits) ≤ x.pattern.toNat
  · rw [decide_eq_true hhigh]
    exact Nat.div_eq_of_lt_le (by simpa using hhigh) (by simp only [Bool.toNat_true]; omega)
  · rw [decide_eq_false hhigh]
    exact Nat.div_eq_of_lt (Nat.not_le.mp hhigh)

/-- A pattern consists of its sign, its exponent and its significand. -/
theorem toNat_pattern (x : Binary w) : x.pattern.toNat =
    (x.negative.toNat * 2 ^ w.exponentBits + x.biasedExponent) * 2 ^ w.significandBits +
      x.storedSignificand := by
  have hexponent : x.negative.toNat * 2 ^ w.exponentBits + x.biasedExponent =
      x.pattern.toNat / 2 ^ w.significandBits := by
    rw [toNat_negative]
    exact Nat.div_add_mod' _ _
  rw [hexponent]
  exact (Nat.div_add_mod' _ _).symm

theorem eq_of_parts (hnegative : x.negative = y.negative)
    (hexponent : x.biasedExponent = y.biasedExponent)
    (hsignificand : x.storedSignificand = y.storedSignificand) : x = y := by
  have htoNat : x.pattern.toNat = y.pattern.toNat := by
    rw [toNat_pattern, toNat_pattern, hnegative, hexponent, hsignificand]
  cases x
  cases y
  exact congrArg Binary.mk (BitVec.eq_of_toNat_eq htoNat)

/-- The finite numbers, below the least normal one and from there on. -/
theorem read_eq_finite_iff : x.read = .finite negative m e ↔ x.negative = negative ∧
    (x.biasedExponent = 0 ∧ m = x.storedSignificand ∧ e = w.lowest ∨
      0 < x.biasedExponent ∧ x.biasedExponent + 1 < 2 ^ w.exponentBits ∧
        m = 2 ^ w.significandBits + x.storedSignificand ∧
        e = w.lowest + x.biasedExponent - 1) := by
  have hlt := x.biasedExponent_lt
  have hbias := w.two_mul_bias
  have hlowest : w.lowest = 1 - w.bias - w.significandBits := rfl
  unfold read
  simp only [Nat.pow_eq]
  split
  · constructor
    · intro h
      split at h <;> cases h
    · rintro ⟨-, h⟩
      omega
  · split
    · rw [Reading.finite.injEq]
      exact and_congr_right fun _ => by omega
    · rw [Reading.finite.injEq]
      exact and_congr_right fun _ => by omega

/-- A finite number is a number of its format, and smaller than the greatest power of two. -/
theorem isNumber_of_read (h : x.read = .finite negative m e) :
    w.IsNumber m e ∧ binaryValue m e < 2 ^ (w.bias + 1) := by
  have hstored := x.storedSignificand_lt
  have hpow := pow_succ 2 w.significandBits
  have hbias := w.two_mul_bias
  have hpos := w.bias_pos
  have hlowest : w.lowest = 1 - w.bias - w.significandBits := rfl
  obtain ⟨-, h⟩ := read_eq_finite_iff.mp h
  have hnumber : w.IsNumber m e := ⟨by omega, by omega, by omega⟩
  have htop : e + (w.significandBits + 1 : Nat) ≤ w.bias + 1 := by
    push_cast
    omega
  refine ⟨hnumber, (binaryValue_lt_iff.mpr hnumber.short).trans_le ?_⟩
  rw [← one_mul (2 ^ _), binaryValue_pow, binaryValue, Nat.cast_one, one_mul, ← zpow_natCast]
  exact zpow_le_zpow_right₀ (by norm_num) htop

/-- A finite number has one pattern only. -/
theorem eq_of_read (hx : x.read = .finite negative m e) (hy : y.read = .finite negative m e) :
    x = y := by
  have hxs := x.storedSignificand_lt
  have hys := y.storedSignificand_lt
  obtain ⟨hxn, hx⟩ := read_eq_finite_iff.mp hx
  obtain ⟨hyn, hy⟩ := read_eq_finite_iff.mp hy
  exact eq_of_parts (hxn.trans hyn.symm) (by omega) (by omega)

/-- Where the gap below a number is half the gap above is told from its pattern. -/
theorem narrowBelow_iff (h : x.read = .finite negative m e) :
    x.narrowBelow = true ↔ w.IsNarrow m e := by
  have hstored := x.storedSignificand_lt
  obtain ⟨-, h⟩ := read_eq_finite_iff.mp h
  simp only [narrowBelow, Bool.and_eq_true, beq_iff_eq, decide_eq_true_eq, Width.IsNarrow]
  omega

end Binary

end Depict.Decimal

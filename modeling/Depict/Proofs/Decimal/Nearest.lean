import Depict.Decimal.Shortest
import Depict.Proofs.Decimal.Format
import Mathlib.Algebra.Order.Ring.Abs

/-!
# Rounding to the nearest number

A decimal is rounded to the nearest number of a format, and to the one with the even significand if
two are equally near. If that number is too great for the format it becomes an infinity, and in any
case the sign of the decimal is kept, also by a zero. What is rounded to a positive number lies
around it: up to half-way to the next number above and to the next one below, with the two ends if
its significand is even.
-/
namespace Depict.Decimal

/-- The value of a decimal. -/
def Numeral.value (d : Numeral) : ℚ :=
  d.significand * 10 ^ d.exponent

/-- A decimal with a sign, which a zero has as well. -/
structure SignedNumeral where
  negative : Bool
  numeral : Numeral
  deriving DecidableEq

/-- No number of the format is nearer to the value than `m * 2 ^ e`, and none is as near unless `m`
is even. -/
structure Width.IsNearest (w : Width) (v : ℚ) (m : Nat) (e : Int) : Prop where
  number : w.IsNumber m e
  closest : ∀ m' e', w.IsNumber m' e' → |v - binaryValue m e| ≤ |v - binaryValue m' e'|
  even : ∀ m' e', w.IsNumber m' e' → binaryValue m e ≠ binaryValue m' e' →
    |v - binaryValue m e| = |v - binaryValue m' e'| → m % 2 = 0

/-- The decimal rounds to the number with the pattern. -/
def SignedNumeral.RoundsTo {w : Width} (d : SignedNumeral) (x : Binary w) : Prop :=
  ∃ m e, w.IsNearest d.numeral.value m e ∧
    x.read = if 2 ^ (w.bias + 1) ≤ binaryValue m e then .infinite d.negative
      else .finite d.negative m e

variable {w : Width} {m m' : Nat} {e e' : Int} {v : ℚ}

/-- The smaller one of two numbers is at least as near up to the middle between them. -/
theorem abs_sub_le_iff_left {x y : ℚ} (h : x < y) : |v - x| ≤ |v - y| ↔ 2 * v ≤ x + y := by
  rw [← sq_le_sq]
  constructor
  · intro hle
    nlinarith
  · intro hle
    nlinarith

/-- The greater one of two numbers is at least as near from the middle between them. -/
theorem abs_sub_le_iff_right {x y : ℚ} (h : x < y) : |v - y| ≤ |v - x| ↔ x + y ≤ 2 * v := by
  rw [← sq_le_sq]
  constructor
  · intro hle
    nlinarith
  · intro hle
    nlinarith

theorem abs_sub_eq_iff {x y : ℚ} (h : x < y) : |v - x| = |v - y| ↔ 2 * v = x + y := by
  rw [le_antisymm_iff, le_antisymm_iff, abs_sub_le_iff_left h, abs_sub_le_iff_right h]

namespace Width.IsNearest

theorem value_le (h : w.IsNearest v m e) (h' : w.IsNearest v m' e') :
    binaryValue m' e' ≤ binaryValue m e := by
  by_contra hless
  have hlt := not_le.mp hless
  have hdist := le_antisymm (h.closest m' e' h'.number) (h'.closest m e h.number)
  have hmiddle := (abs_sub_eq_iff hlt).mp hdist
  obtain ⟨n, k, hn, hnext, hparity⟩ := h.number.exists_next
  have habove : binaryValue m e < binaryValue n k := by
    rw [hnext]
    exact binaryValue_lt_iff.mpr (Nat.lt_succ_self m)
  have hbelow : binaryValue n k ≤ binaryValue m' e' := by
    rw [hnext]
    exact h.number.succ_le h'.number hlt
  -- a number between them would be nearer, so they are neighbours
  have hhalf := (abs_sub_le_iff_left habove).mp (h.closest n k hn)
  have hsame : binaryValue n k = binaryValue m' e' := le_antisymm hbelow (by linarith)
  obtain ⟨rfl, rfl⟩ := hn.unique h'.number hsame
  exact hparity ((h'.even m e h.number hlt.ne' hdist.symm).trans
    (h.even n k hn hlt.ne hdist).symm)

/-- There is only one nearest number. -/
theorem unique (h : w.IsNearest v m e) (h' : w.IsNearest v m' e') : m = m' ∧ e = e' :=
  h.number.unique h'.number (le_antisymm (h'.value_le h) (h.value_le h'))

/-- A number is the nearest one to itself. -/
theorem self (h : w.IsNumber m e) : w.IsNearest (binaryValue m e) m e where
  number := h
  closest m' e' _ := by
    rw [sub_self, abs_zero]
    exact abs_nonneg _
  even m' e' _ hne htie := by
    rw [sub_self, abs_zero] at htie
    exact absurd (sub_eq_zero.mp (abs_eq_zero.mp htie.symm)) hne

end Width.IsNearest

/-- The value lies between two ends, and is one of them only if they count. -/
def Within (closed : Bool) (low high v : ℚ) : Prop :=
  if closed then low ≤ v ∧ v ≤ high else low < v ∧ v < high

section Within
variable {closed : Bool} {low high k v' v'' : ℚ}

theorem within_iff : Within closed low high v ↔
    low ≤ v ∧ v ≤ high ∧ (closed = false → v ≠ low ∧ v ≠ high) := by
  cases closed with
  | true => simp [Within]
  | false =>
    simp only [Within, Bool.false_eq_true, if_false, lt_iff_le_and_ne, ne_eq, true_implies, eq_comm]
    tauto

/-- What lies between two such values is one. -/
theorem Within.of_between (h : Within closed low high v) (h' : Within closed low high v')
    (hle : v ≤ v'') (hle' : v'' ≤ v') : Within closed low high v'' := by
  unfold Within at h h' ⊢
  split
  · next hc =>
    rw [if_pos hc] at h h'
    exact ⟨h.1.trans hle, hle'.trans h'.2⟩
  · next hc =>
    rw [if_neg hc] at h h'
    exact ⟨h.1.trans_le hle, hle'.trans_lt h'.2⟩

theorem within_mul_iff (hk : 0 < k) :
    Within closed (low * k) (high * k) (v * k) ↔ Within closed low high v := by
  simp only [Within, mul_le_mul_iff_of_pos_right hk, mul_lt_mul_iff_of_pos_right hk]

end Within

/-- How far the next number below is away. -/
def Width.gapBelow (w : Width) (m : Nat) (e : Int) : ℚ :=
  if w.IsNarrow m e then 2 ^ e / 2 else 2 ^ e

theorem Width.IsNumber.exists_below (h : w.IsNumber m e) (hm : 0 < m) :
    ∃ m' e', w.IsNumber m' e' ∧ binaryValue m' e' = binaryValue m e - w.gapBelow m e ∧
      ∀ n k, w.IsNumber n k → binaryValue n k < binaryValue m e →
        binaryValue n k ≤ binaryValue m' e' := by
  obtain ⟨m', e', hnumber, he, hnext⟩ := h.exists_previous hm
  have hgap : (2 : ℚ) ^ e' = w.gapBelow m e := by
    rw [he, gapBelow]
    split
    · rw [zpow_sub_one₀ (by norm_num), div_eq_mul_inv]
    · rfl
  refine ⟨m', e', hnumber, ?_, fun n k hn hlt => ?_⟩
  · rw [← hnext, binaryValue_succ, hgap, add_sub_cancel_right]
  · by_contra hle
    have hsucc := hnumber.succ_le hn (not_le.mp hle)
    rw [hnext] at hsucc
    exact absurd hlt (not_lt.mpr hsucc)

theorem Width.IsNumber.exists_above (h : w.IsNumber m e) :
    ∃ m' e', w.IsNumber m' e' ∧ binaryValue m' e' = binaryValue m e + 2 ^ e ∧
      ∀ n k, w.IsNumber n k → binaryValue m e < binaryValue n k →
        binaryValue m' e' ≤ binaryValue n k := by
  obtain ⟨m', e', hnumber, hnext, -⟩ := h.exists_next
  refine ⟨m', e', hnumber, hnext.trans (binaryValue_succ m e), fun n k hn hlt => ?_⟩
  rw [hnext]
  exact h.succ_le hn hlt

/-- What is rounded to a positive number. -/
theorem Width.isNearest_iff (h : w.IsNumber m e) (hm : 0 < m) :
    w.IsNearest v m e ↔ Within (m % 2 == 0) (binaryValue m e - w.gapBelow m e / 2)
      (binaryValue m e + 2 ^ e / 2) v := by
  obtain ⟨p, i, hp, hbelow, hprevious⟩ := h.exists_below hm
  obtain ⟨n, k, hn, habove, hnext⟩ := h.exists_above
  have hgap : (0 : ℚ) < 2 ^ e := zpow_pos two_pos e
  have hgap' : 0 < w.gapBelow m e := by
    unfold gapBelow
    split <;> linarith
  have hlt : binaryValue p i < binaryValue m e := by linarith
  have hlt' : binaryValue m e < binaryValue n k := by linarith
  rw [within_iff]
  constructor
  · intro hv
    have hlow := (abs_sub_le_iff_right hlt).mp (hv.closest p i hp)
    have hhigh := (abs_sub_le_iff_left hlt').mp (hv.closest n k hn)
    refine ⟨by linarith, by linarith, fun hodd => ⟨fun hend => ?_, fun hend => ?_⟩⟩
    · have htie := (abs_sub_eq_iff (v := v) hlt).mpr (by linarith)
      have heven := hv.even p i hp hlt.ne' htie.symm
      rw [heven] at hodd
      cases hodd
    · have htie := (abs_sub_eq_iff (v := v) hlt').mpr (by linarith)
      have heven := hv.even n k hn hlt'.ne htie
      rw [heven] at hodd
      cases hodd
  · rintro ⟨hlow, hhigh, hopen⟩
    refine ⟨h, fun m' e' h' => ?_, fun m' e' h' hne htie => ?_⟩
    · rcases lt_trichotomy (binaryValue m' e') (binaryValue m e) with hless | heq | hless
      · have hle := hprevious m' e' h' hless
        exact (abs_sub_le_iff_right hless).mpr (by linarith)
      · rw [heq]
      · have hle := hnext m' e' h' hless
        exact (abs_sub_le_iff_left hless).mpr (by linarith)
    · by_contra hodd
      obtain ⟨hnotLow, hnotHigh⟩ := hopen (by simpa using hodd)
      rcases lt_or_gt_of_ne hne with hless | hless
      · have hle := hnext m' e' h' hless
        have hmiddle := (abs_sub_eq_iff hless).mp htie
        exact hnotHigh (by linarith)
      · have hle := hprevious m' e' h' hless
        have hmiddle := (abs_sub_eq_iff hless).mp htie.symm
        exact hnotLow (by linarith)

namespace SignedNumeral
variable {d : SignedNumeral} {x y : Binary w} {negative : Bool}

/-- A decimal rounds to a finite number if it has its sign and no other number is nearer. -/
theorem roundsTo_iff (hx : x.read = .finite negative m e) :
    d.RoundsTo x ↔ d.negative = negative ∧ w.IsNearest d.numeral.value m e := by
  obtain ⟨hnumber, hsmall⟩ := Binary.isNumber_of_read hx
  constructor
  · rintro ⟨m', e', hnearest, hread⟩
    rw [hx] at hread
    split at hread
    · cases hread
    · obtain ⟨rfl, rfl, rfl⟩ := Reading.finite.inj hread
      exact ⟨rfl, hnearest⟩
  · rintro ⟨rfl, hnearest⟩
    exact ⟨m, e, hnearest, by rw [hx, if_neg (not_le.mpr hsmall)]⟩

/-- A decimal that rounds to a finite number rounds to no other one and to no infinity. -/
theorem RoundsTo.unique (hx : x.read = .finite negative m e) (h : d.RoundsTo x)
    (h' : d.RoundsTo y) : y = x := by
  obtain ⟨-, hsmall⟩ := Binary.isNumber_of_read hx
  obtain ⟨rfl, hnearest⟩ := (roundsTo_iff hx).mp h
  obtain ⟨m', e', hnearest', hread⟩ := h'
  obtain ⟨rfl, rfl⟩ := hnearest.unique hnearest'
  rw [if_neg (not_le.mpr hsmall)] at hread
  exact Binary.eq_of_read hread hx

end SignedNumeral

end Depict.Decimal

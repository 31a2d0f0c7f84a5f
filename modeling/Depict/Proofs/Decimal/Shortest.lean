import Depict.Proofs.Decimal.Nearest
import Mathlib.Data.List.TakeWhile
import Mathlib.Data.Nat.Digits.Lemmas

/-!
# The shortest decimal

The values that round to a positive number are those around it, so if a value on each side of a
power of ten rounds to the number, the power does as well. The search starts at the coarsest grid
and stops at the first one with a decimal that rounds to the number. A decimal with fewer digits
than the one that is found would lie on the other side of a power of ten that is on a coarser grid.
-/
namespace Depict.Decimal

namespace Span
variable {s : Span} {n : Nat} {v v' : ℚ}

/-- The value, in units of the span, is among those that round to its number. -/
def Covers (s : Span) (v : ℚ) : Prop :=
  Within s.closed s.low s.high (4 * v)

theorem holds_iff : s.holds n = true ↔ s.Covers n := by
  rw [holds, Covers, Within]
  cases s.closed with
  | true =>
    simp only [if_true, Bool.and_eq_true, decide_eq_true_eq]
    norm_cast
  | false =>
    simp only [Bool.false_eq_true, if_false, Bool.and_eq_true, decide_eq_true_eq]
    norm_cast

theorem Covers.of_between (h : s.Covers v) (h' : s.Covers v') {u : ℚ} (hle : v ≤ u) (hle' : u ≤ v') :
    s.Covers u :=
  Within.of_between h h' (by linarith) (by linarith)

/-- The numbers of units that round to a number are without gaps. -/
theorem holds_of_between {k n m : Nat} (hk : s.holds k = true) (hm : s.holds m = true) (hkn : k ≤ n)
    (hnm : n ≤ m) : s.holds n = true :=
  holds_iff.mpr ((holds_iff.mp hk).of_between (holds_iff.mp hm) (by exact_mod_cast hkn)
    (by exact_mod_cast hnm))

/-- A number is not closer to zero than to its neighbours. -/
structure Apart (s : Span) : Prop where
  step_pos : 0 < s.step
  step_le : s.step ≤ s.amount

namespace Apart

theorem holds_amount (h : s.Apart) : s.holds s.amount = true :=
  s.holds_amount h.step_pos h.step_le

theorem not_holds_zero (h : s.Apart) : s.holds 0 = false := by
  obtain ⟨hpos, hle⟩ := h
  have hlow : 0 < s.low := by
    unfold low
    split <;> omega
  unfold holds
  split <;> simp only [Nat.mul_zero, Bool.and_eq_false_iff, decide_eq_false_iff_not] <;> omega

theorem high_le (h : s.Apart) : s.high ≤ 6 * s.amount := by
  have hle := h.step_le
  unfold high
  omega

end Apart

theorem le_high (h : s.holds n = true) : 4 * n ≤ s.high := by
  unfold holds at h
  split at h <;> simp only [Bool.and_eq_true, decide_eq_true_eq] at h <;> omega

/-- The neighbour on a grid that is taken rounds to the number, and none is taken only if neither
does. -/
theorem neighbour?_spec (s : Span) (zeros : Nat) :
    match s.neighbour? zeros with
    | some n => s.holds (n * 10 ^ zeros) = true
    | none => s.holds (s.amount / 10 ^ zeros * 10 ^ zeros) = false ∧
        s.holds ((s.amount / 10 ^ zeros + 1) * 10 ^ zeros) = false := by
  unfold neighbour?
  dsimp only [Nat.pow_eq]
  cases hbelow : s.holds (s.amount / 10 ^ zeros * 10 ^ zeros) with
  | false =>
    cases habove : s.holds ((s.amount / 10 ^ zeros + 1) * 10 ^ zeros) with
    | false => exact ⟨rfl, rfl⟩
    | true => exact habove
  | true =>
    cases habove : s.holds ((s.amount / 10 ^ zeros + 1) * 10 ^ zeros) with
    | false => exact hbelow
    | true =>
      -- both do: which one is nearer, or even, does not matter here
      dsimp only
      split_ifs
      · exact hbelow
      · exact habove
      · exact hbelow
      · exact habove

theorem holds_of_neighbour {zeros : Nat} (h : s.neighbour? zeros = some n) :
    s.holds (n * 10 ^ zeros) = true := by
  have hspec := s.neighbour?_spec zeros
  rwa [h] at hspec

/-- If no neighbour on a grid rounds to the number, nothing on the grid does. -/
theorem not_holds_of_neighbour (hs : s.Apart) {zeros : Nat} (h : s.neighbour? zeros = none)
    (n : Nat) : s.holds (n * 10 ^ zeros) = false := by
  have hspec := s.neighbour?_spec zeros
  rw [h] at hspec
  obtain ⟨hbelow, habove⟩ := hspec
  have hgrid : 0 < 10 ^ zeros := Nat.pow_pos (by decide)
  by_contra hn
  have hn : s.holds (n * 10 ^ zeros) = true := by simpa using hn
  rcases Nat.lt_or_ge (s.amount / 10 ^ zeros) n with hlt | hle
  · have hpast : s.amount ≤ (s.amount / 10 ^ zeros + 1) * 10 ^ zeros :=
      (Nat.lt_mul_of_div_lt (Nat.lt_succ_self _) hgrid).le
    have hheld := holds_of_between hs.holds_amount hn hpast (Nat.mul_le_mul_right _ hlt)
    rw [habove] at hheld
    cases hheld
  · have hheld := holds_of_between hn hs.holds_amount (Nat.mul_le_mul_right _ hle)
      (Nat.div_mul_le_self _ _)
    rw [hbelow] at hheld
    cases hheld

theorem amount_lt (s : Span) : s.amount < 10 ^ s.digitCount :=
  (Nat.length_toDigits_le_iff (by decide) Nat.length_toDigits_pos).mp le_rfl

/-- The first number for which a search finds something. -/
theorem exists_first {α : Type} {f : Nat → Option α} {k : Nat} {a : α}
    (h : (List.range k).findSome? f = some a) :
    ∃ i < k, f i = some a ∧ ∀ j < i, f j = none := by
  obtain ⟨before, i, after, hrange, hi, hbefore⟩ := List.findSome?_eq_some_iff.mp h
  have hlength := congrArg List.length hrange
  rw [List.length_range, List.length_append, List.length_cons] at hlength
  have hget : ∀ j < k, (before ++ i :: after)[j]? = some j := by
    intro j hj
    rw [← hrange, List.getElem?_range hj]
  have hindex : before.length = i := by
    have hself := hget before.length (by omega)
    rw [List.getElem?_append_right le_rfl, Nat.sub_self] at hself
    exact (Option.some.inj hself).symm
  refine ⟨i, by omega, hi, fun j hj => hbefore j ?_⟩
  have hmem := hget j (by omega)
  rw [List.getElem?_append_left (by omega)] at hmem
  exact List.mem_of_getElem? hmem

/-- The decimal that is found rounds to the number, and nothing on a coarser grid does. -/
theorem Apart.shortest_spec (hs : s.Apart) : ∃ zeros n : Nat,
    s.shortest = ⟨n, zeros - s.places⟩ ∧ s.holds (n * 10 ^ zeros) = true ∧
      ∀ k z : Nat, zeros < z → s.holds (k * 10 ^ z) = false := by
  unfold shortest
  dsimp only
  cases hfound : (List.range (s.digitCount + 1)).findSome? fun i =>
      (s.neighbour? (s.digitCount - i)).map fun n =>
        Numeral.mk n ((s.digitCount - i : Nat) - (s.places : Int)) with
  | none =>
    -- on the finest grid the number itself is found
    have hlast := List.findSome?_eq_none_iff.mp hfound s.digitCount (List.mem_range.mpr (by omega))
    rw [Nat.sub_self, Option.map_eq_none_iff] at hlast
    have hself := not_holds_of_neighbour hs hlast s.amount
    rw [pow_zero, mul_one, hs.holds_amount] at hself
    cases hself
  | some d =>
    obtain ⟨i, hi, hd, hfirst⟩ := exists_first hfound
    obtain ⟨n, hn, rfl⟩ := Option.map_eq_some_iff.mp hd
    refine ⟨s.digitCount - i, n, rfl, holds_of_neighbour hn, fun k z hz => ?_⟩
    by_cases htop : z ≤ s.digitCount
    · have hcoarser := hfirst (s.digitCount - z) (by omega)
      rw [Nat.sub_sub_self htop, Option.map_eq_none_iff] at hcoarser
      exact not_holds_of_neighbour hs hcoarser k
    · by_contra hk
      have hk : s.holds (k * 10 ^ z) = true := by simpa using hk
      have hpos : 0 < k := by
        by_contra hzero
        obtain rfl : k = 0 := by omega
        rw [Nat.zero_mul, hs.not_holds_zero] at hk
        cases hk
      have hgrid : 10 ^ (s.digitCount + 1) ≤ 10 ^ z := Nat.pow_le_pow_right (by decide) (by omega)
      have hmultiple : 1 * 10 ^ z ≤ k * 10 ^ z := Nat.mul_le_mul_right _ hpos
      have hhigh := le_high hk
      have hbound := hs.high_le
      have hamount := s.amount_lt
      rw [pow_succ] at hgrid
      omega

/-- A decimal that rounds to the number does not have fewer digits than the one that is found. -/
theorem Apart.significand_lt (hs : s.Apart) {n p : Nat} {k : Int} (hn : n < 10 ^ p)
    (hcovers : s.Covers (n * 10 ^ k)) : s.shortest.significand < 10 ^ p := by
  obtain ⟨zeros, f, hshortest, hholds, hcoarser⟩ := hs.shortest_spec
  rw [hshortest]
  by_contra hlong
  have hlong : 10 ^ p ≤ f := Nat.not_lt.mp hlong
  rcases lt_or_ge (zeros : Int) k with hlt | hle
  · lift k to Nat using by omega
    have hheld : s.holds (n * 10 ^ k) = true := holds_iff.mpr (by exact_mod_cast hcovers)
    rw [hcoarser n k (by omega)] at hheld
    cases hheld
  · -- the power of ten between the two would be on a coarser grid
    have hpower : s.holds (10 ^ p * 10 ^ zeros) = true := by
      refine holds_iff.mpr (hcovers.of_between (holds_iff.mp hholds) ?_ ?_)
      · have hdigits : (n : ℚ) ≤ 10 ^ p := by exact_mod_cast hn.le
        have hgrid : (10 : ℚ) ^ k ≤ 10 ^ zeros := by
          rw [← zpow_natCast]
          exact zpow_le_zpow_right₀ (by norm_num) hle
        push_cast
        exact mul_le_mul hdigits hgrid (zpow_pos (by norm_num) k).le (by positivity)
      · exact_mod_cast Nat.mul_le_mul_right _ hlong
    cases p with
    | zero =>
      obtain rfl : n = 0 := by omega
      have hzero : s.holds 0 = true := holds_iff.mpr (by simpa using hcovers)
      rw [hs.not_holds_zero] at hzero
      cases hzero
    | succ q =>
      rw [pow_succ, mul_assoc, ← pow_succ'] at hpower
      rw [hcoarser (10 ^ q) (zeros + 1) (by omega)] at hpower
      cases hpower

section OfBinary
variable {w : Width} {m : Nat} {e : Int} {narrow : Bool}

theorem ofBinary_narrow : (ofBinary m e narrow).narrow = narrow := by
  cases e <;> rfl

theorem ofBinary_closed : (ofBinary m e narrow).closed = (m % 2 == 0) := by
  cases e <;> rfl

theorem ofBinary_amount : (ofBinary m e narrow).amount = m * (ofBinary m e narrow).step := by
  cases e <;> rfl

theorem ofBinary_step (m : Nat) (e : Int) (narrow : Bool) : ((ofBinary m e narrow).step : ℚ) =
    2 ^ e * 10 ^ (ofBinary m e narrow).places := by
  cases e with
  | ofNat k => simp [ofBinary]
  | negSucc k =>
    have hten : (10 : ℚ) = 2 * 5 := by norm_num
    have htwo : (2 : ℚ) ^ (k + 1) ≠ 0 := by positivity
    simp only [ofBinary, Nat.pow_eq, Nat.cast_pow, Nat.cast_ofNat]
    rw [zpow_negSucc, hten, mul_pow, inv_mul_cancel_left₀ htwo]

theorem apart_ofBinary (hm : 0 < m) (e : Int) (narrow : Bool) : (ofBinary m e narrow).Apart where
  step_pos := by cases e <;> exact Nat.pow_pos (by decide)
  step_le := by
    rw [ofBinary_amount]
    exact Nat.le_mul_of_pos_left _ hm

/-- What rounds to a positive binary number is what its span covers. -/
theorem isNearest_iff_covers (h : w.IsNumber m e) (hm : 0 < m)
    (hnarrow : narrow = true ↔ w.IsNarrow m e) : w.IsNearest v m e ↔
      (ofBinary m e narrow).Covers (v * 10 ^ (ofBinary m e narrow).places) := by
  have hstep := ofBinary_step m e narrow
  have hamount : ((ofBinary m e narrow).amount : ℚ) =
      binaryValue m e * 10 ^ (ofBinary m e narrow).places := by
    rw [ofBinary_amount, Nat.cast_mul, hstep, binaryValue, mul_assoc]
  have hle := (apart_ofBinary hm e narrow).step_le
  have hunit : (0 : ℚ) < 4 * 10 ^ (ofBinary m e narrow).places := by positivity
  have hlow : ((ofBinary m e narrow).low : ℚ) = (binaryValue m e - w.gapBelow m e / 2) *
      (4 * 10 ^ (ofBinary m e narrow).places) := by
    rw [low, ofBinary_narrow, Nat.cast_sub (by split <;> omega), Width.gapBelow]
    by_cases hn : w.IsNarrow m e
    · rw [if_pos (hnarrow.mpr hn), if_pos hn]
      push_cast
      rw [hamount, hstep]
      ring
    · rw [if_neg (mt hnarrow.mp hn), if_neg hn]
      push_cast
      rw [hamount, hstep]
      ring
  have hhigh : ((ofBinary m e narrow).high : ℚ) = (binaryValue m e + 2 ^ e / 2) *
      (4 * 10 ^ (ofBinary m e narrow).places) := by
    rw [high]
    push_cast
    rw [hamount, hstep]
    ring
  rw [Width.isNearest_iff h hm, Covers, ofBinary_closed, hlow, hhigh, mul_left_comm 4 v,
    within_mul_iff hunit]

end OfBinary

end Span

namespace Numeral
variable {d : Numeral}

/-- The digits of a decimal from its first one to the last one that is no zero. -/
def significantDigits (d : Numeral) : Nat :=
  ((Nat.digits 10 d.significand).dropWhile (· == 0)).length

/-- A decimal can be written with its significant digits alone. -/
theorem exists_short (d : Numeral) :
    ∃ (n : Nat) (k : Int), n < 10 ^ d.significantDigits ∧ d.value = n * 10 ^ k := by
  have hsplit := List.takeWhile_append_dropWhile (p := (· == 0)) (l := Nat.digits 10 d.significand)
  have hzeros := List.eq_replicate_of_mem fun x hx =>
    beq_iff_eq.mp (List.mem_takeWhile_imp (p := (· == 0)) (l := Nat.digits 10 d.significand) hx)
  generalize (List.takeWhile _ _).length = zeros at hzeros
  rw [hzeros] at hsplit
  have hvalue := congrArg (Nat.ofDigits 10) hsplit
  rw [Nat.ofDigits_append, Nat.ofDigits_replicate_zero, Nat.ofDigits_digits, List.length_replicate,
    Nat.zero_add] at hvalue
  refine ⟨Nat.ofDigits 10 ((Nat.digits 10 d.significand).dropWhile (· == 0)), zeros + d.exponent,
    ?_, ?_⟩
  · refine Nat.ofDigits_lt_base_pow_length (by decide) fun x hx => ?_
    exact Nat.digits_lt_base (by decide) ((List.dropWhile_sublist _).subset hx)
  · have hcast : (d.significand : ℚ) =
        10 ^ zeros * Nat.ofDigits 10 ((Nat.digits 10 d.significand).dropWhile (· == 0)) := by
      exact_mod_cast hvalue.symm
    rw [value, hcast, zpow_add₀ (by norm_num), zpow_natCast]
    push_cast
    ring

theorem eq_mul_pow {a b : Nat} {i k : Int} (hle : i ≤ k) (h : (a : ℚ) * 10 ^ i = b * 10 ^ k) :
    a = b * 10 ^ (k - i).toNat := by
  have hpos : (10 : ℚ) ^ i ≠ 0 := (zpow_pos (by norm_num) i).ne'
  have hk : k = (k - i).toNat + i := by omega
  rw [hk, zpow_add₀ (by norm_num), zpow_natCast, ← mul_assoc] at h
  exact_mod_cast mul_right_cancel₀ hpos h

theorem length_dropWhile_digits_le {n p : Nat} (hn : n < 10 ^ p) (zeros : Nat) :
    ((Nat.digits 10 (n * 10 ^ zeros)).dropWhile (· == 0)).length ≤ p := by
  rcases Nat.eq_zero_or_pos n with rfl | hpos
  · simp
  · have hempty : ((List.replicate zeros 0).dropWhile (· == 0)).isEmpty = true := by simp
    rw [mul_comm, Nat.digits_base_pow_mul (by decide) hpos, List.dropWhile_append, if_pos hempty]
    exact (List.length_dropWhile_le _ _).trans ((Nat.digits_length_le_iff (by decide) n).mpr hn)

/-- No way to write a decimal has fewer digits than are significant. -/
theorem significantDigits_le {n p : Nat} {k : Int} (hn : n < 10 ^ p)
    (hvalue : d.value = n * 10 ^ k) : d.significantDigits ≤ p := by
  rw [significantDigits]
  rcases le_total d.exponent k with hle | hle
  · rw [eq_mul_pow hle hvalue]
    exact length_dropWhile_digits_le hn _
  · have hless : d.significand < 10 ^ p := by
      rw [eq_mul_pow hle hvalue.symm] at hn
      exact (Nat.le_mul_of_pos_right _ (by positivity)).trans_lt hn
    simpa using length_dropWhile_digits_le hless 0

end Numeral

namespace Span
variable {w : Width} {m : Nat} {e : Int} {narrow : Bool}

/-- The decimal that is found rounds to the number, and no decimal with fewer significant digits
does. -/
theorem shortest_isNearest (h : w.IsNumber m e) (hm : 0 < m)
    (hnarrow : narrow = true ↔ w.IsNarrow m e) :
    w.IsNearest (ofBinary m e narrow).shortest.value m e ∧
      ∀ d : Numeral, w.IsNearest d.value m e →
        (ofBinary m e narrow).shortest.significantDigits ≤ d.significantDigits := by
  have hs := apart_ofBinary hm e narrow
  have hten : (10 : ℚ) ≠ 0 := by norm_num
  constructor
  · obtain ⟨zeros, n, hshortest, hholds, -⟩ := hs.shortest_spec
    have hvalue : (ofBinary m e narrow).shortest.value * 10 ^ (ofBinary m e narrow).places =
        (n * 10 ^ zeros : Nat) := by
      rw [hshortest, Numeral.value, zpow_sub₀ hten, zpow_natCast, zpow_natCast]
      push_cast
      rw [mul_assoc, div_mul_cancel₀ _ (pow_ne_zero _ hten)]
    rw [isNearest_iff_covers h hm hnarrow, hvalue]
    exact holds_iff.mp hholds
  · intro d hd
    obtain ⟨n, k, hn, hvalue⟩ := d.exists_short
    rw [isNearest_iff_covers h hm hnarrow, hvalue, mul_assoc, ← zpow_natCast,
      ← zpow_add₀ hten] at hd
    exact Numeral.significantDigits_le (hs.significand_lt hn hd) rfl

end Span

end Depict.Decimal

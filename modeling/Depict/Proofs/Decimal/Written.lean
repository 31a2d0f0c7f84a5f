import Depict.Decimal.Numeral
import Depict.Proofs.Decimal.Shortest
import Depict.Text.Pieces

/-!
# Reading written numbers

A numeral has a sign if it is negative, digits with at most one point between them, and at most one
power of ten behind them. Either way in which a number is laid out, with all its places or with a
power of ten, it reads back as the decimal that was laid out.
-/
namespace Depict.Decimal
open Text

/-- The whole number that digits stand for, if there are digits and nothing else. -/
def readDigits? (s : List Char) : Option Nat :=
  if s ≠ [] ∧ s.all Char.isDigit then some (Nat.ofDigitChars 10 s 0) else none

/-- The whole number with or without a sign before it. -/
def readPower? : List Char → Option Int
  | '-' :: s => (readDigits? s).map fun n => -Int.ofNat n
  | '+' :: s => (readDigits? s).map Int.ofNat
  | s => (readDigits? s).map Int.ofNat

/-- The number without a power of ten; there are digits on both sides of its point. -/
def readPlaces? (s : List Char) : Option Numeral :=
  match pieces (· == '.') s with
  | [whole] => (readDigits? whole).map (⟨·, 0⟩)
  | [whole, fraction] => do
    let _ ← readDigits? whole
    let _ ← readDigits? fraction
    let n ← readDigits? (whole ++ fraction)
    return ⟨n, -fraction.length⟩
  | _ => none

def Numeral.read? (s : List Char) : Option Numeral :=
  match pieces (· == 'e') s with
  | [places] => readPlaces? places
  | [places, power] => do
    let d ← readPlaces? places
    let k ← readPower? power
    return ⟨d.significand, d.exponent + k⟩
  | _ => none

def SignedNumeral.read? : List Char → Option SignedNumeral
  | '-' :: s => (Numeral.read? s).map (⟨true, ·⟩)
  | s => (Numeral.read? s).map (⟨false, ·⟩)

/-- There are digits and nothing else. -/
structure IsDigits (s : List Char) : Prop where
  ne_nil : s ≠ []
  isDigit : ∀ c ∈ s, c.isDigit = true

namespace IsDigits
variable {s t : List Char}

theorem read (h : IsDigits s) : readDigits? s = some (Nat.ofDigitChars 10 s 0) :=
  if_pos ⟨h.ne_nil, List.all_eq_true.mpr h.isDigit⟩

theorem natDigits (n : Nat) : IsDigits (natDigits n) where
  ne_nil := List.ne_nil_of_length_pos Nat.length_toDigits_pos
  isDigit _ hc := Nat.isDigit_of_mem_toDigits (by decide) (by decide) hc

theorem append (hs : IsDigits s) (ht : ∀ c ∈ t, c.isDigit = true) : IsDigits (s ++ t) where
  ne_nil := List.append_ne_nil_of_left_ne_nil hs.ne_nil t
  isDigit c hc := (List.mem_append.mp hc).elim (hs.isDigit c) (ht c)

theorem prepend (hs : ∀ c ∈ s, c.isDigit = true) (ht : IsDigits t) : IsDigits (s ++ t) where
  ne_nil := List.append_ne_nil_of_right_ne_nil s ht.ne_nil
  isDigit c hc := (List.mem_append.mp hc).elim (hs c) (ht.isDigit c)

theorem of_subset (h : IsDigits s) (hne : t ≠ []) (hsub : t ⊆ s) : IsDigits t where
  ne_nil := hne
  isDigit c hc := h.isDigit c (hsub hc)

theorem zero : IsDigits ['0'] where
  ne_nil := by simp
  isDigit := List.all_eq_true.mp rfl

theorem bne (h : IsDigits s) {mark : Char} (hm : mark.isDigit = false) :
    ∀ c ∈ s, (c == mark) = false := by
  intro c hc
  have hdigit := h.isDigit c hc
  by_contra heq
  obtain rfl : c = mark := by simpa using heq
  rw [hdigit] at hm
  cases hm

theorem exists_cons (h : IsDigits s) : ∃ c t, s = c :: t ∧ c.isDigit = true := by
  obtain ⟨c, t, rfl⟩ := List.exists_cons_of_ne_nil h.ne_nil
  exact ⟨c, t, rfl, h.isDigit c List.mem_cons_self⟩

end IsDigits

theorem isDigit_of_mem_zeros {n : Nat} : ∀ c ∈ List.replicate n '0', c.isDigit = true := by
  intro c hc
  rw [List.eq_of_mem_replicate hc]
  decide

theorem ofDigitChars_natDigits (n : Nat) : Nat.ofDigitChars 10 (natDigits n) 0 = n :=
  Nat.ofDigitChars_toDigits (by decide) (by decide)

section Parts
variable {whole fraction s t : List Char} {d : Numeral} {k : Int}

theorem readPlaces?_of_isDigits (h : IsDigits s) :
    readPlaces? s = some ⟨Nat.ofDigitChars 10 s 0, 0⟩ := by
  rw [readPlaces?, pieces_eq_splitOnP, List.splitOnP_eq_singleton (h.bne rfl)]
  simp only [h.read, Option.map_some]

theorem readPlaces?_of_point (hw : IsDigits whole) (hf : IsDigits fraction) :
    readPlaces? (whole ++ '.' :: fraction) =
      some ⟨Nat.ofDigitChars 10 (whole ++ fraction) 0, -fraction.length⟩ := by
  rw [readPlaces?, pieces_eq_splitOnP,
    List.splitOnP_append_cons_of_forall_mem (hw.bne rfl) '.' (beq_self_eq_true '.'),
    List.splitOnP_eq_singleton (hf.bne rfl)]
  simp only [hw.read, hf.read, (hw.append hf.isDigit).read]
  rfl

theorem readPower?_of_sign (hs : IsDigits s) (hk : Nat.ofDigitChars 10 s 0 = k.natAbs) :
    readPower? ((if k < 0 then '-' else '+') :: s) = some k := by
  split
  · rw [readPower?, hs.read, hk, Option.map_some]
    exact congrArg some (by simp only [Int.ofNat_eq_natCast]; omega)
  · rw [readPower?, hs.read, hk, Option.map_some]
    exact congrArg some (Int.natAbs_of_nonneg (by omega))

theorem read?_of_places (hs : ∀ c ∈ s, (c == 'e') = false) (h : readPlaces? s = some d) :
    Numeral.read? s = some d := by
  rw [Numeral.read?, pieces_eq_splitOnP, List.splitOnP_eq_singleton hs]
  exact h

theorem read?_of_power (hs : ∀ c ∈ s, (c == 'e') = false) (ht : ∀ c ∈ t, (c == 'e') = false)
    (h : readPlaces? s = some d) (hk : readPower? t = some k) :
    Numeral.read? (s ++ 'e' :: t) = some ⟨d.significand, d.exponent + k⟩ := by
  rw [Numeral.read?, pieces_eq_splitOnP,
    List.splitOnP_append_cons_of_forall_mem hs 'e' (beq_self_eq_true 'e'),
    List.splitOnP_eq_singleton ht]
  simp only [h, hk]
  rfl

end Parts

/-- The text reads as a decimal of the value, and does not begin with a sign. -/
def ReadsAs (s : List Char) (v : ℚ) : Prop :=
  ∃ c t d, s = c :: t ∧ c.isDigit = true ∧ Numeral.read? s = some d ∧ d.value = v

theorem readsAs_of_point {whole fraction : List Char} {v : ℚ} (hw : IsDigits whole)
    (hf : IsDigits fraction)
    (hv : Numeral.value ⟨Nat.ofDigitChars 10 (whole ++ fraction) 0, -fraction.length⟩ = v) :
    ReadsAs (whole ++ '.' :: fraction) v := by
  obtain ⟨c, t, hwhole, hc⟩ := hw.exists_cons
  refine ⟨c, t ++ '.' :: fraction, _, by rw [hwhole, List.cons_append], hc, ?_, hv⟩
  refine read?_of_places (fun c hc => ?_) (readPlaces?_of_point hw hf)
  rcases List.mem_append.mp hc with hc | hc
  · exact hw.bne rfl c hc
  · rcases List.mem_cons.mp hc with rfl | hc
    · rfl
    · exact hf.bne rfl c hc

theorem readsAs_of_power {s power : List Char} {c : Char} {d : Numeral} {k : Int}
    {v : ℚ} (hc : c.isDigit = true) (hs : ∀ b ∈ c :: s, (b == 'e') = false)
    (h : readPlaces? (c :: s) = some d) (hp : IsDigits power)
    (hk : Nat.ofDigitChars 10 power 0 = k.natAbs)
    (hv : Numeral.value ⟨d.significand, d.exponent + k⟩ = v) :
    ReadsAs (c :: s ++ 'e' :: (if k < 0 then '-' else '+') :: power) v := by
  have hpower : ∀ b ∈ (if k < 0 then '-' else '+') :: power, (b == 'e') = false := by
    intro b hb
    rcases List.mem_cons.mp hb with rfl | hb
    · split <;> rfl
    · exact hp.bne rfl b hb
  exact ⟨c, _, _, List.cons_append, hc, read?_of_power hs hpower h (readPower?_of_sign hp hk), hv⟩

/-- A power of ten is written with two digits at least. -/
theorem readDigits_padded (n : Nat) :
    let power := if (natDigits n).length < 2 then '0' :: natDigits n else natDigits n
    IsDigits power ∧ Nat.ofDigitChars 10 power 0 = n := by
  dsimp only
  have hvalue := ofDigitChars_natDigits n
  split
  · refine ⟨(IsDigits.natDigits n).prepend IsDigits.zero.isDigit, ?_⟩
    rw [Nat.ofDigitChars_cons]
    exact hvalue
  · exact ⟨IsDigits.natDigits n, hvalue⟩

namespace Numeral

theorem value_congr {d : Numeral} {n : Nat} {e : Int} (hn : n = d.significand)
    (he : e = d.exponent) : value ⟨n, e⟩ = d.value := by
  rw [hn, he]

/-- Zeros behind the digits of a whole number, one of them behind the point. -/
theorem value_zeros (n k : Nat) : value ⟨n * 10 ^ (k + 1), -1⟩ = value ⟨n, k⟩ := by
  rw [value, value, zpow_neg_one, zpow_natCast, pow_succ]
  push_cast
  ring

theorem readsAs_positional (d : Numeral) : ReadsAs (d.positional ['.', '0']) d.value := by
  have hdigits := IsDigits.natDigits d.significand
  have hvalue := ofDigitChars_natDigits d.significand
  have hlength : 0 < (natDigits d.significand).length := List.length_pos_of_ne_nil hdigits.ne_nil
  rw [positional]
  generalize natDigits d.significand = digits at *
  split
  · next hpoint =>
    -- the point is before the first digit
    generalize hzeros : (-(digits.length + d.exponent)).toNat = zeros
    have hfraction : IsDigits (List.replicate zeros '0' ++ digits) :=
      hdigits.prepend isDigit_of_mem_zeros
    have hlayout : '0' :: '.' :: List.replicate zeros '0' ++ digits =
        ['0'] ++ '.' :: (List.replicate zeros '0' ++ digits) := rfl
    rw [hlayout]
    refine readsAs_of_point .zero hfraction (value_congr ?_ ?_)
    · have hone : ['0'] ++ List.replicate zeros '0' = List.replicate (zeros + 1) '0' := rfl
      rw [← List.append_assoc, hone, Nat.ofDigitChars_append,
        Nat.ofDigitChars_replicate_zero, Nat.mul_zero, hvalue]
    · rw [List.length_append, List.length_replicate]
      omega
  · next hpoint =>
    generalize hplace : (digits.length + d.exponent).toNat = place
    split
    · next hfraction =>
      -- the point is between two digits
      have hsplit := List.take_append_drop place digits
      have hbefore : IsDigits (digits.take place) :=
        hdigits.of_subset (List.ne_nil_of_length_pos (by rw [List.length_take]; omega))
          (List.take_subset _ _)
      have hafter : IsDigits (digits.drop place) :=
        hdigits.of_subset (List.ne_nil_of_length_pos (by rw [List.length_drop]; omega))
          (List.drop_subset _ _)
      refine readsAs_of_point hbefore hafter (value_congr ?_ ?_)
      · rw [hsplit, hvalue]
      · rw [List.length_drop]
        omega
    · next hwhole =>
      -- the point is behind all digits
      obtain ⟨zeros, hzeros⟩ := Int.eq_ofNat_of_zero_le (Int.not_lt.mp hwhole)
      have hone : List.replicate zeros '0' ++ ['0'] = List.replicate (zeros + 1) '0' :=
        List.replicate_succ'.symm
      refine readsAs_of_point (hdigits.append isDigit_of_mem_zeros) .zero ?_
      rw [hzeros, Int.toNat_natCast, List.append_assoc, hone, Nat.ofDigitChars_append, hvalue,
        Nat.ofDigitChars_replicate_zero, Nat.mul_comm]
      exact (value_zeros _ _).trans (value_congr rfl hzeros.symm)

theorem readsAs_scientific (d : Numeral) : ReadsAs d.scientific d.value := by
  have hdigits := IsDigits.natDigits d.significand
  have hvalue := ofDigitChars_natDigits d.significand
  have hscale : d.scale = (natDigits d.significand).length + d.exponent - 1 := rfl
  obtain ⟨hpower, hpowerValue⟩ := readDigits_padded d.scale.natAbs
  rw [scientific]
  generalize natDigits d.significand = digits at *
  obtain ⟨c, rest, rfl, hc⟩ := hdigits.exists_cons
  have hmarks : ∀ b ∈ c :: rest, (b == 'e') = false := hdigits.bne rfl
  cases rest with
  | nil =>
    have hread := readPlaces?_of_isDigits hdigits
    exact readsAs_of_power hc hmarks hread hpower hpowerValue
      (value_congr hvalue (by simp [hscale]))
  | cons c' rest =>
    have hfirst : IsDigits [c] := hdigits.of_subset (by simp) (by simp)
    have hrest : IsDigits (c' :: rest) := hdigits.of_subset (by simp) (by simp)
    have hread := readPlaces?_of_point hfirst hrest
    have hpoint : ∀ b ∈ c :: '.' :: c' :: rest, (b == 'e') = false := by
      intro b hb
      rcases List.mem_cons.mp hb with rfl | hb
      · exact hmarks b List.mem_cons_self
      · rcases List.mem_cons.mp hb with rfl | hb
        · rfl
        · exact hmarks b (List.mem_cons_of_mem _ hb)
    refine readsAs_of_power hc hpoint hread hpower hpowerValue (value_congr hvalue ?_)
    simp only [hscale, List.length_cons]
    push_cast
    ring

end Numeral

end Depict.Decimal

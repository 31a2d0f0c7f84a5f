import Depict.Proofs.Decimal.Written
import Depict.Show.Plain

/-!
# Binary numbers as text

The canonical text of a finite binary number reads back as a decimal that rounds to this number and
to no other one of its format, and no decimal with fewer significant digits does. That holds in each
format for itself: a number that is narrower than the widest ones is not widened before it is
written.
-/
namespace Depict

/-- The binary number that an atom is, with its format. -/
def Atom.binary? : Atom → Option (Σ w, Decimal.Binary w)
  | float x => some ⟨.double, x⟩
  | sized (.binary w x) => some ⟨w, x⟩
  | _ => none

theorem Atom.primitiveText_of_binary {a : Atom} {w : Decimal.Width} {x : Decimal.Binary w}
    (ha : a.binary? = some ⟨w, x⟩) : a.primitiveText = .ok x.text := by
  cases a with
  | float x' =>
    cases ha
    rfl
  | sized n =>
    cases n with
    | binary w' x' =>
      cases ha
      rfl
    | _ => cases ha
  | _ => cases ha

namespace Decimal
variable {w : Width} {x : Binary w} {m : Nat} {e : Int} {negative : Bool}

/-- The number is neither infinite nor no number. -/
def Binary.IsFinite (x : Binary w) : Prop :=
  ∃ negative m e, x.read = .finite negative m e

theorem read?_signed {s : List Char} {v : ℚ} (h : ReadsAs s v) (negative : Bool) :
    ∃ d : SignedNumeral, SignedNumeral.read? (if negative then '-' :: s else s) = some d ∧
      d.negative = negative ∧ d.numeral.value = v := by
  obtain ⟨c, t, d, rfl, hc, hread, hv⟩ := h
  refine ⟨⟨negative, d⟩, ?_, rfl, hv⟩
  cases negative with
  | true =>
    rw [if_pos rfl, SignedNumeral.read?, hread]
    rfl
  | false =>
    have hne : c ≠ '-' := by
      rintro rfl
      cases hc
    rw [if_neg Bool.false_ne_true]
    unfold SignedNumeral.read?
    split
    · next h => exact absurd (List.cons.inj h).1 hne
    · rw [hread]
      rfl

namespace Binary

theorem chars_of_finite (hx : x.read = .finite negative m e) (whole : List Char) :
    x.chars whole = if negative then '-' :: x.magnitude whole else x.magnitude whole := by
  obtain ⟨hnegative, -⟩ := read_eq_finite_iff.mp hx
  rw [chars, hasMinus, hx, hnegative]
  cases negative <;> rfl

theorem readsAs_magnitude_zero (hx : x.read = .finite negative 0 e) :
    ReadsAs (x.magnitude ['.', '0']) 0 := by
  rw [magnitude, hx]
  have hzero : Nat.ofDigitChars 10 (['0'] ++ ['0']) 0 = 0 := rfl
  exact readsAs_of_point .zero .zero (by rw [Numeral.value, hzero, Nat.cast_zero, zero_mul])

theorem readsAs_magnitude (hx : x.read = .finite negative m e) (hm : 0 < m) :
    ReadsAs (x.magnitude ['.', '0']) (Span.ofBinary m e x.narrowBelow).shortest.value := by
  cases m with
  | zero => cases hm
  | succ m =>
    rw [magnitude, hx]
    dsimp only
    split
    · exact Numeral.readsAs_positional _
    · exact Numeral.readsAs_scientific _

/-- The decimals that a finite number is written as. -/
theorem read?_text (hx : x.IsFinite) : ∃ d, SignedNumeral.read? x.text.toList = some d ∧
    d.RoundsTo x ∧ ∀ d' : SignedNumeral, d'.RoundsTo x →
      d.numeral.significantDigits ≤ d'.numeral.significantDigits := by
  obtain ⟨negative, m, e, hx⟩ := hx
  obtain ⟨hnumber, -⟩ := isNumber_of_read hx
  rw [text, String.toList_ofList, chars_of_finite hx]
  rcases Nat.eq_zero_or_pos m with rfl | hm
  · obtain ⟨d, hread, hsign, hvalue⟩ := read?_signed (readsAs_magnitude_zero hx) negative
    refine ⟨d, hread, ?_, fun d' _ => ?_⟩
    · have hself := Width.IsNearest.self hnumber
      have hzero : binaryValue 0 e = 0 := by simp [binaryValue]
      rw [SignedNumeral.roundsTo_iff hx, hvalue]
      rw [hzero] at hself
      exact ⟨hsign, hself⟩
    · have hnone : d.numeral.significantDigits ≤ 0 :=
        Numeral.significantDigits_le (n := 0) (k := 0) (by decide) (by simp [hvalue])
      omega
  · obtain ⟨d, hread, hsign, hvalue⟩ := read?_signed (readsAs_magnitude hx hm) negative
    obtain ⟨hnearest, hshortest⟩ := Span.shortest_isNearest hnumber hm (narrowBelow_iff hx)
    refine ⟨d, hread, ?_, fun d' hd' => ?_⟩
    · rw [SignedNumeral.roundsTo_iff hx, hvalue]
      exact ⟨hsign, hnearest⟩
    · obtain ⟨-, hd'⟩ := (SignedNumeral.roundsTo_iff hx).mp hd'
      obtain ⟨n, k, hn, hshort⟩ := Numeral.exists_short (Span.ofBinary m e x.narrowBelow).shortest
      exact (Numeral.significantDigits_le hn (hvalue.trans hshort)).trans (hshortest _ hd')

end Binary

end Decimal

open Decimal

/-- The text of a finite binary number is a decimal that rounds to the number alone, its sign
included if it is a zero, and every other decimal that does so has as many significant digits or
more. -/
theorem Atom.primitiveText_roundsTo {a : Atom} {w : Width} {x : Binary w}
    (ha : a.binary? = some ⟨w, x⟩) (hx : x.IsFinite) :
    ∃ text d, a.primitiveText = .ok text ∧ SignedNumeral.read? text.toList = some d ∧
      (∀ y : Binary w, d.RoundsTo y ↔ y = x) ∧
      ∀ d' : SignedNumeral, d'.RoundsTo x →
        d.numeral.significantDigits ≤ d'.numeral.significantDigits := by
  obtain ⟨d, hread, hrounds, hshortest⟩ := Binary.read?_text hx
  obtain ⟨negative, m, e, hfinite⟩ := hx
  refine ⟨x.text, d, Atom.primitiveText_of_binary ha, hread, fun y => ⟨fun hy => ?_, ?_⟩, hshortest⟩
  · exact hrounds.unique hfinite hy
  · rintro rfl
    exact hrounds

/-- The negative number next to zero in the narrowest format. -/
def leastHalf : Binary .half :=
  ⟨0x8001⟩

/-- One digit is enough for it, though its value has many more. -/
theorem Atom.primitiveText_leastHalf :
    (Atom.sized (.binary .half leastHalf)).primitiveText = .ok "-6e-08" ∧
      ∀ y : Binary .half, SignedNumeral.RoundsTo ⟨true, ⟨6, -8⟩⟩ y ↔ y = leastHalf := by
  have htext : (Atom.sized (.binary .half leastHalf)).primitiveText = .ok "-6e-08" := by
    decide +kernel
  obtain ⟨text, d, htext', hread, hrounds, -⟩ :=
    Atom.primitiveText_roundsTo (a := .sized (.binary .half leastHalf)) rfl ⟨true, 1, -24, by decide⟩
  rw [htext] at htext'
  rw [← Except.ok.inj htext'] at hread
  have hd : SignedNumeral.read? "-6e-08".toList = some ⟨true, ⟨6, -8⟩⟩ := by decide +kernel
  rw [hd] at hread
  rw [← Option.some.inj hread] at hrounds
  exact ⟨htext, hrounds⟩

end Depict

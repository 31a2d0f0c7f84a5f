import Depict.Proofs.Text.Trim
import Depict.Proofs.Text.Utf8
import Depict.Text.Casing
import Depict.Text.Digits

/-!
# The case of letters

What a character is does not depend on the case of ASCII letters, and blanks stay blanks, so two
texts that are the same but for the blanks around them and the case of letters are the same when
they are trimmed and compared in one case. A text in lower case is no ASCII word without a `k`
unless it was ASCII before.
-/
namespace Depict
open Text

/-- What holds of the numbers below a bound, as characters, holds of the characters below it. -/
@[elab_as_elim]
theorem Text.forall_char_of_lt {bound : Nat} {p : Char → Prop} (c : Char) (hc : c.toNat < bound)
    (h : ∀ n < bound, p (Char.ofNat n)) : p c := by
  have hp := h c.toNat hc
  rwa [Char.ofNat_toNat] at hp

namespace Text

theorem toLower_of_not_capital {c : Char} (h : ¬ (65 ≤ c.toNat ∧ c.toNat < 91)) : c.toLower = c := by
  apply Char.toLower_eq_of_not_isUpper
  simp only [Char.isUpper, UInt32.le_iff_toNat_le, ge_iff_le, decide_eq_true_eq]
  exact fun hbounds => h ⟨hbounds.1, Nat.lt_succ_of_le hbounds.2⟩

/-- In lower case a character is a blank or a digit if it was one before, it is the same in upper
case, and digits do not change. -/
theorem toLower_classes (c : Char) :
    isBlank c.toLower = isBlank c ∧ isDigit c.toLower = isDigit c ∧
      upperChar c.toLower = upperChar c ∧ (isDigit c = true → c.toLower = c) := by
  by_cases hletter : 65 ≤ c.toNat ∧ c.toNat < 91
  · have hall : 65 ≤ c.toNat → isBlank c.toLower = isBlank c ∧ isDigit c.toLower = isDigit c ∧
        upperChar c.toLower = upperChar c ∧ (isDigit c = true → c.toLower = c) :=
      forall_char_of_lt c hletter.2 (by decide +kernel)
    exact hall hletter.1
  · simp [toLower_of_not_capital hletter]

@[simp] theorem isBlank_toLower (c : Char) : isBlank c.toLower = isBlank c :=
  (toLower_classes c).1

@[simp] theorem upperChar_toLower (c : Char) : upperChar c.toLower = upperChar c :=
  (toLower_classes c).2.2.1

theorem trim_map_toLower (s : List Char) : trim (s.map Char.toLower) = (trim s).map Char.toLower := by
  have hblank : isBlank ∘ Char.toLower = isBlank := by
    funext c
    simp
  simp only [trim, trimBy, dropEnd, List.dropWhile_map, hblank, ← List.map_reverse]

/-- The lower case of a character that is not ASCII is not ASCII either, but for one letter. -/
theorem lowerChar_of_not_ascii {c : Char} (hc : 128 ≤ c.toNat) :
    ∃ d ∈ lowerChar c, 128 ≤ d.toNat ∨ d = 'k' := by
  have htable : ∀ r ∈ lowerRanges, (128 ≤ r.image ∨ r.first = r.last ∧ r.image = 107) ∧
      (r.image + (r.last - r.first) < 0xD800 ∨
        0xDFFF < r.image ∧ r.image + (r.last - r.first) < 0x110000) := by
    decide +kernel
  unfold lowerChar
  rw [if_neg (Nat.not_lt.mpr hc)]
  split
  · exact ⟨'\u0307', by simp, .inl (by decide)⟩
  · split
    · next r hr =>
      obtain ⟨himage, hvalid⟩ := htable r (List.mem_of_find?_eq_some hr)
      have hcovers : (r.first ≤ c.toNat ∧ c.toNat ≤ r.last) ∧ (c.toNat - r.first) % r.stride = 0 := by
        simpa [CaseRange.covers] using List.find?_some hr
      have hcode : (r.image + (c.toNat - r.first)).isValidChar := by
        unfold Nat.isValidChar
        omega
      have hlower : (Char.ofNat (r.image + (c.toNat - r.first))).toNat =
          r.image + (c.toNat - r.first) := by
        rw [Char.toNat_ofNat, if_pos hcode]
      refine ⟨_, List.mem_singleton_self _, ?_⟩
      rcases himage with himage | ⟨hone, himage⟩
      · left
        omega
      · right
        have hcode : r.image + (c.toNat - r.first) = 107 := by omega
        rw [hcode]
    · exact ⟨c, List.mem_singleton_self c, .inl hc⟩

theorem lowerBetween_of_not_ascii {c : Char} (before after : List Char) (hc : 128 ≤ c.toNat) :
    ∃ d ∈ lowerBetween before c after, 128 ≤ d.toNat ∨ d = 'k' := by
  unfold lowerBetween
  split
  · refine ⟨_, List.mem_singleton_self _, .inl ?_⟩
    split <;> decide
  · exact lowerChar_of_not_ascii hc

theorem lowerAfter_of_not_ascii {s : List Char} (before : List Char) (hs : ∃ c ∈ s, 128 ≤ c.toNat) :
    ∃ d ∈ lowerAfter before s, 128 ≤ d.toNat ∨ d = 'k' := by
  induction s generalizing before with
  | nil => simp at hs
  | cons c s ih =>
    obtain ⟨e, he, hcode⟩ := hs
    rcases List.mem_cons.mp he with rfl | he
    · obtain ⟨d, hd, h⟩ := lowerBetween_of_not_ascii before s hcode
      exact ⟨d, List.mem_append_left _ hd, h⟩
    · obtain ⟨d, hd, h⟩ := ih (c :: before) ⟨e, he, hcode⟩
      exact ⟨d, List.mem_append_right _ hd, h⟩

/-- A word of ASCII letters other than `k` is the lower case only of its own case variants. -/
theorem lower_eq_iff {s word : List Char} (hword : ∀ c ∈ word, c.toNat < 128 ∧ c ≠ 'k') :
    lower s = word ↔ s.map Char.toLower = word := by
  by_cases hs : ∀ c ∈ s, c.toNat < 128
  · rw [lower_of_ascii hs]
  · have hs : ∃ c ∈ s, 128 ≤ c.toNat := by simpa using hs
    constructor
    · rintro rfl
      obtain ⟨d, hd, hout⟩ := lowerAfter_of_not_ascii [] hs
      obtain ⟨hascii, hk⟩ := hword d hd
      exact absurd (hout.resolve_right hk) (Nat.not_le.mpr hascii)
    · rintro rfl
      obtain ⟨c, hc, hcode⟩ := hs
      have hsame : c.toLower = c := toLower_of_not_capital (by omega)
      obtain ⟨hascii, -⟩ := hword c (List.mem_map.mpr ⟨c, hc, hsame⟩)
      exact absurd hcode (Nat.not_le.mpr hascii)

end Text

/-- Two texts that are the same but for the blanks around them and the case of ASCII letters. -/
inductive Restyled (text text' : String) : Prop
  | around {before body after before' body' after' : List Char}
      (hblank : ∀ c ∈ before ++ after ++ before' ++ after', isBlank c = true)
      (hcase : body.map Char.toLower = body'.map Char.toLower)
      (h : text.toList = before ++ body ++ after) (h' : text'.toList = before' ++ body' ++ after')

theorem Restyled.trim {text text' : String} (h : Restyled text text') :
    (trim text.toList).map Char.toLower = (trim text'.toList).map Char.toLower := by
  cases h with
  | @around before body after before' body' after' hblank hcase h h' =>
    have hbody : Text.trim (before ++ body ++ after) = Text.trim body :=
      trimBy_append (fun c hc => hblank c (by simp [hc])) (fun c hc => hblank c (by simp [hc])) body
    have hbody' : Text.trim (before' ++ body' ++ after') = Text.trim body' :=
      trimBy_append (fun c hc => hblank c (by simp [hc])) (fun c hc => hblank c (by simp [hc])) body'
    rw [h, h', hbody, hbody', ← trim_map_toLower, hcase,
      trim_map_toLower]

end Depict

/-!
# Pieces of a text

A text cut at every character of a class. The cuts are not part of the pieces,
and there is always one piece more than there are cuts.
-/
namespace Depict.Text

/-- The runs between the characters of the class, in order. -/
def pieces (p : Char → Bool) : List Char → List (List Char)
  | [] => [[]]
  | c :: cs =>
    if p c then [] :: pieces p cs
    else match pieces p cs with
      | [] => [[c]]
      | l :: ls => (c :: l) :: ls

theorem pieces_eq_splitOnP (p : Char → Bool) (s : List Char) : pieces p s = s.splitOnP p := by
  induction s with
  | nil => rfl
  | cons c s ih =>
    obtain ⟨l, ls, hl⟩ := List.exists_cons_of_ne_nil (List.splitOnP_ne_nil p s)
    rw [pieces, ih, List.splitOnP_cons_eq_if_modifyHead, hl]
    rfl

theorem pieces_ne_nil (p : Char → Bool) (s : List Char) : pieces p s ≠ [] := by
  rw [pieces_eq_splitOnP]
  exact List.splitOnP_ne_nil p s

theorem pieces_cons_cut {p : Char → Bool} {c : Char} (cs : List Char) (h : p c = true) :
    pieces p (c :: cs) = [] :: pieces p cs := by
  simp [pieces, h]

theorem pieces_cons_char {p : Char → Bool} {c : Char} {cs l : List Char} {ls : List (List Char)}
    (h : p c = false) (hl : pieces p cs = l :: ls) : pieces p (c :: cs) = (c :: l) :: ls := by
  simp [pieces, h, hl]

/-- No piece holds a character of the class. -/
theorem not_mem_of_mem_pieces {p : Char → Bool} :
    ∀ {cs l : List Char}, l ∈ pieces p cs → ∀ c ∈ l, p c = false
  | [], l, hl, c, hc => by simp_all [pieces]
  | d :: ds, l, hl, c, hc => by
    by_cases hd : p d = true
    · rw [pieces_cons_cut ds hd] at hl
      rcases List.mem_cons.mp hl with rfl | hl
      · simp at hc
      · exact not_mem_of_mem_pieces hl c hc
    · obtain ⟨k, ks, hk⟩ := List.exists_cons_of_ne_nil (pieces_ne_nil p ds)
      rw [pieces_cons_char (by simpa using hd) hk] at hl
      rcases List.mem_cons.mp hl with rfl | hl
      · rcases List.mem_cons.mp hc with rfl | hc
        · simpa using hd
        · exact not_mem_of_mem_pieces (hk ▸ List.mem_cons_self) c hc
      · exact not_mem_of_mem_pieces (hk ▸ List.mem_cons_of_mem _ hl) c hc

end Depict.Text

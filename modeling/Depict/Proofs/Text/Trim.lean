import Depict.Text.Trim
import Mathlib.Data.List.DropRight
import Mathlib.Data.List.TakeWhile
import Mathlib.Tactic.MkIffOfInductiveProp

/-!
# What trimming leaves

A trimmed text is bare: neither end is in the class. Trimming changes no bare text, so a
bare text between two marks is what remains when the marks are trimmed. What is dropped at the end
of a text, and what is taken behind a mark, is what the library drops and takes on the right.
-/
namespace Depict.Text

/-- Neither end of the text is in the class. -/
@[mk_iff]
structure Bare (p : Char → Bool) (s : List Char) : Prop where
  head : ∀ c ∈ s.head?, p c = false
  last : ∀ c ∈ s.getLast?, p c = false

instance (p : Char → Bool) (s : List Char) : Decidable (Bare p s) :=
  decidable_of_iff (s.head?.all (!p ·) = true ∧ s.getLast?.all (!p ·) = true)
    (by simp [bare_iff, Option.all_eq_true])

theorem head?_dropWhile {p : Char → Bool} {s : List Char} :
    ∀ c ∈ (s.dropWhile p).head?, p c = false := by
  intro c hc
  have h := List.head?_dropWhile_not p s
  rw [Option.mem_def.mp hc] at h
  exact h

theorem dropEnd_eq_rdropWhile (p : Char → Bool) (s : List Char) : dropEnd p s = s.rdropWhile p := rfl

theorem afterLast_eq_rtakeWhile (c : Char) (s : List Char) :
    afterLast c s = s.rtakeWhile (· != c) := rfl

theorem getLast?_dropEnd {p : Char → Bool} {s : List Char} :
    ∀ c ∈ (dropEnd p s).getLast?, p c = false := by
  intro c hc
  obtain ⟨hne, rfl⟩ := List.mem_getLast?_eq_getLast hc
  exact Bool.eq_false_iff.mpr (List.rdropWhile_last_not p s hne)

theorem exists_dropEnd_append (p : Char → Bool) (s : List Char) :
    ∃ t, (∀ c ∈ t, p c = true) ∧ dropEnd p s ++ t = s :=
  ⟨s.rtakeWhile p, fun _ hc => List.mem_rtakeWhile_imp hc, List.rdropWhile_append_rtakeWhile⟩

/-- A text is bare if dropping the class changes it at neither end. -/
theorem bare_iff_drop {p : Char → Bool} {s : List Char} :
    Bare p s ↔ s.dropWhile p = s ∧ s.rdropWhile p = s := by
  rw [bare_iff, List.dropWhile_eq_self_iff, List.rdropWhile_eq_self_iff]
  apply and_congr
  · cases s <;> simp
  · cases hs : s.getLast? with
    | none => simp [List.getLast?_eq_none_iff.mp hs]
    | some c =>
      obtain ⟨hne, rfl⟩ := List.mem_getLast?_eq_getLast hs
      simp [hne]

/-- Trimming at the end leaves the first character in its place if it is to stay. -/
theorem head?_dropEnd {p : Char → Bool} {s : List Char} (h : ∀ c ∈ s.head?, p c = false) :
    (dropEnd p s).head? = s.head? := by
  cases s with
  | nil => rfl
  | cons c s =>
    obtain ⟨t, -, ht⟩ := exists_dropEnd_append p (c :: s)
    cases hd : dropEnd p (c :: s) with
    | nil =>
      have hall := List.dropWhile_eq_nil_iff.mp (List.reverse_eq_nil_iff.mp hd) c (by simp)
      rw [h c rfl] at hall
      contradiction
    | cons d r =>
      rw [hd] at ht
      rw [List.head?_cons, List.head?_cons, (List.cons.inj ht).1]

theorem bare_trimBy (p : Char → Bool) (s : List Char) : Bare p (trimBy p s) where
  head := by
    rw [trimBy, head?_dropEnd head?_dropWhile]
    exact head?_dropWhile
  last := getLast?_dropEnd

theorem trimBy_of_bare {p : Char → Bool} {s : List Char} (h : Bare p s) : trimBy p s = s := by
  obtain ⟨hhead, hlast⟩ := bare_iff_drop.mp h
  rw [trimBy, hhead, dropEnd_eq_rdropWhile, hlast]

theorem dropEnd_append_of_forall {p : Char → Bool} {after : List Char}
    (ha : ∀ c ∈ after, p c = true) (s : List Char) : dropEnd p (s ++ after) = dropEnd p s := by
  have ha : ∀ c ∈ after.reverse, p c = true := fun c hc => ha c (List.mem_reverse.mp hc)
  rw [dropEnd, dropEnd, List.reverse_append, List.dropWhile_append_of_pos ha]

/-- Characters of the class that stand around a text go with those at its ends. -/
theorem trimBy_append {p : Char → Bool} {before after : List Char}
    (hb : ∀ c ∈ before, p c = true) (ha : ∀ c ∈ after, p c = true) (s : List Char) :
    trimBy p (before ++ s ++ after) = trimBy p s := by
  rw [trimBy, trimBy, List.append_assoc, List.dropWhile_append_of_pos hb, List.dropWhile_append]
  split
  · next h =>
    rw [List.isEmpty_iff.mp h, List.dropWhile_eq_nil_iff.mpr ha]
  · exact dropEnd_append_of_forall ha _

/-- Only the end of a text is looked at behind its last character that is to stay. -/
theorem dropEnd_append_cons {p : Char → Bool} {c : Char} (hc : p c = false) (s t : List Char) :
    dropEnd p (s ++ c :: t) = s ++ c :: dropEnd p t := by
  have hkeep : ¬ p c = true := by simp [hc]
  rw [dropEnd, dropEnd, List.reverse_append, List.reverse_cons, List.append_assoc,
    List.dropWhile_append]
  split
  · next h =>
    rw [List.isEmpty_iff.mp h, List.singleton_append, List.dropWhile_cons_of_neg hkeep]
    simp
  · simp

/-- Trimming takes what stands before the first character that is to stay, and looks at the end. -/
theorem trimBy_append_cons {p : Char → Bool} {before : List Char} {c : Char}
    (hb : ∀ d ∈ before, p d = true) (hc : p c = false) (s : List Char) :
    trimBy p (before ++ c :: s) = c :: dropEnd p s := by
  have hkeep : ¬ p c = true := by simp [hc]
  rw [trimBy, List.dropWhile_append_of_pos hb, List.dropWhile_cons_of_neg hkeep]
  exact dropEnd_append_cons hc [] s

theorem trimBy_dropEnd (p : Char → Bool) (s : List Char) : trimBy p (dropEnd p s) = trimBy p s := by
  obtain ⟨t, ht, hs⟩ := exists_dropEnd_append p s
  have h : trimBy p ([] ++ dropEnd p s ++ t) = trimBy p (dropEnd p s) :=
    trimBy_append (by simp) ht (dropEnd p s)
  rw [List.nil_append, hs] at h
  exact h.symm

/-- Marks around a bare text are all that trimming takes away. -/
theorem trimBy_marked {p : Char → Bool} {s : List Char} {mark : Char} (h : Bare p s)
    (hm : p mark = true) : trimBy p (mark :: s ++ [mark]) = s := by
  have hone : ∀ c ∈ [mark], p c = true := fun c hc => List.mem_singleton.mp hc ▸ hm
  exact (trimBy_append hone hone s).trans (trimBy_of_bare h)

/-- The second text is bare, and the first one has it with characters of the class around it. -/
structure Peeled (p : Char → Bool) (s t : List Char) : Prop where
  bare : Bare p t
  around : ∃ before after, (∀ c ∈ before, p c = true) ∧ (∀ c ∈ after, p c = true) ∧
    s = before ++ t ++ after

/-- Trimming leaves the only bare text that has nothing but the class around it. -/
theorem trimBy_eq_iff {p : Char → Bool} {s t : List Char} : trimBy p s = t ↔ Peeled p s t := by
  constructor
  · rintro rfl
    obtain ⟨after, hafter, hs⟩ := exists_dropEnd_append p (s.dropWhile p)
    refine ⟨bare_trimBy p s, s.takeWhile p, after, fun c hc => List.mem_takeWhile_imp hc, hafter, ?_⟩
    rw [trimBy, List.append_assoc, hs, List.takeWhile_append_dropWhile]
  · rintro ⟨hbare, before, after, hbefore, hafter, rfl⟩
    rw [trimBy_append hbefore hafter, trimBy_of_bare hbare]

/-- A text that trimming leaves alone is bare. -/
theorem trimBy_eq_self_iff {p : Char → Bool} {s : List Char} : trimBy p s = s ↔ Bare p s :=
  ⟨fun h => h ▸ bare_trimBy p s, trimBy_of_bare⟩

theorem length_trimBy_le (p : Char → Bool) (s : List Char) : (trimBy p s).length ≤ s.length := by
  obtain ⟨-, before, after, -, -, hs⟩ := trimBy_eq_iff.mp (Eq.refl (trimBy p s))
  have hlength := congrArg List.length hs
  simp only [List.length_append] at hlength
  omega

/-- A text without the mark has none at its ends. -/
theorem bare_of_not_mem {mark : Char} {s : List Char} (h : mark ∉ s) : Bare (· == mark) s where
  head c hc := by simpa using fun hcm : c = mark => h (hcm ▸ List.mem_of_head? hc)
  last c hc := by simpa using fun hcm : c = mark => h (hcm ▸ List.mem_of_getLast? hc)

theorem mem_of_mem_trimBy {p : Char → Bool} {s : List Char} {c : Char} (h : c ∈ trimBy p s) :
    c ∈ s := by
  obtain ⟨t, -, ht⟩ := exists_dropEnd_append p (s.dropWhile p)
  exact (List.dropWhile_suffix p).subset (ht ▸ List.mem_append_left t h)

theorem afterLast_of_not_mem {c : Char} {s : List Char} (h : c ∉ s) : afterLast c s = s := by
  rw [afterLast_eq_rtakeWhile, List.rtakeWhile_eq_self_iff]
  intro d hd
  simpa using ne_of_mem_of_not_mem hd h

/-- What follows an occurrence without another one in it follows the last one. -/
theorem afterLast_append {c : Char} (s : List Char) {t : List Char} (h : c ∉ t) :
    afterLast c (s ++ c :: t) = t := by
  have hrev : (s ++ c :: t).reverse = t.reverse ++ c :: s.reverse := by simp
  have hkeep : ∀ d ∈ t.reverse, (d != c) = true := by
    intro d hd
    simpa using ne_of_mem_of_not_mem (List.mem_reverse.mp hd) h
  rw [afterLast, hrev, List.takeWhile_append_of_pos hkeep]
  simp

end Depict.Text

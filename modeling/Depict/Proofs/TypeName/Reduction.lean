import Depict.Proofs.TypeName.Collapse

/-!
# The simple name of any name

Every name ends in groups of a dollar sign and digits, perhaps in none. The simple name is found in
what stands before them: it is what follows the last dollar sign there and the digits behind that, or
else what follows the last dot.
-/
namespace Depict.TypeName
open Text

/-- Dollar signs, each with some digits behind it or none. -/
inductive IsGroups : List Char → Prop
  | nil : IsGroups []
  | group {digits rest : List Char} (hd : ∀ d ∈ digits, d.isDigit = true) (h : IsGroups rest) :
      IsGroups ('$' :: (digits ++ rest))

/-- The groups are the longest end of the name that is made of groups, and the base is the rest. -/
structure Splits (name base groups : List Char) : Prop where
  eq_append : name = base ++ groups
  isGroups : IsGroups groups
  longest : ∀ b g, name = b ++ g → IsGroups g → g.length ≤ groups.length

/-- What a base says last: what follows its last dollar sign and all digits behind that, what follows
its last dot if it has no dollar sign, or all of it if it has neither. -/
inductive SaysLast (base : List Char) : List Char → Prop
  | nested {outer index rest : List Char} (hb : base = outer ++ '$' :: (index ++ rest))
      (hlast : '$' ∉ index ++ rest) (hindex : ∀ d ∈ index, d.isDigit = true)
      (hrest : ∀ c ∈ rest.head?, c.isDigit = false) : SaysLast base rest
  | dotted {scope rest : List Char} (hno : '$' ∉ base) (hb : base = scope ++ '.' :: rest)
      (hlast : '.' ∉ rest) : SaysLast base rest
  | plain (hno : '$' ∉ base) (hdot : '.' ∉ base) : SaysLast base base

variable {name base groups s : List Char}

theorem IsGroups.eq_or_isDigit (h : IsGroups groups) :
    ∀ c ∈ groups, c = '$' ∨ c.isDigit = true := by
  induction h with
  | nil => simp
  | group hd h ih =>
    intro c hc
    simp only [List.mem_cons, List.mem_append] at hc
    rcases hc with hc | hc | hc
    · exact .inl hc
    · exact .inr (hd c hc)
    · exact ih c hc

theorem exists_splits (name : List Char) : ∃ base groups, Splits name base groups := by
  induction name with
  | nil =>
    refine ⟨[], [], rfl, .nil, fun b g h _ => ?_⟩
    simp [(List.append_eq_nil_iff.mp h.symm).2]
  | cons c cs ih =>
    by_cases hwhole : IsGroups (c :: cs)
    · refine ⟨[], c :: cs, rfl, hwhole, fun b g h _ => ?_⟩
      simp [h]
    · -- every other end of the name is an end of its rest
      obtain ⟨base, groups, heq, hgroups, hlongest⟩ := ih
      refine ⟨c :: base, groups, by simp [heq], hgroups, fun b g h hg => ?_⟩
      cases b with
      | nil =>
        rw [List.nil_append] at h
        exact absurd (h ▸ hg) hwhole
      | cons d b => exact hlongest b g (List.cons.inj h).2 hg

/-- A base does not end in a group, which would belong to the others. -/
theorem Splits.base_ne (h : Splits name base groups) {outer digits : List Char}
    (hd : ∀ d ∈ digits, d.isDigit = true) : base ≠ outer ++ '$' :: digits := by
  intro hb
  have heq : name = outer ++ '$' :: (digits ++ groups) := by
    rw [h.eq_append, hb]
    simp
  have hlength := h.longest _ _ heq (.group hd h.isGroups)
  simp only [List.length_cons, List.length_append] at hlength
  omega

/-- Groups behind a character of no group are the longest ones. -/
theorem Splits.of_letter (hg : IsGroups groups) {c : Char} (hc : c ≠ '$') (hd : c.isDigit = false)
    (before : List Char) : Splits (before ++ c :: groups) (before ++ [c]) groups where
  eq_append := by simp
  isGroups := hg
  longest b g h hgroups := by
    by_contra hlt
    have hsuffix : c :: groups <:+ g := by
      apply List.suffix_of_suffix_length_le (List.suffix_append before _) (h ▸ List.suffix_append b g)
      rw [List.length_cons]
      omega
    have hmem := hgroups.eq_or_isDigit c (hsuffix.subset List.mem_cons_self)
    simp [hc, hd] at hmem

/-- A dollar sign parts a name for collapsing. -/
theorem collapseFrom_append_dollar (skipping : Bool) (s t : List Char) :
    collapseFrom skipping (s ++ '$' :: t) = collapseFrom skipping s ++ '$' :: collapseFrom true t := by
  induction s generalizing skipping with
  | nil => exact collapseFrom_dollar skipping t
  | cons c s ih =>
    rw [List.cons_append, collapseFrom, collapseFrom, ih, ih]
    split <;> rfl

theorem collapse_append_groups (hg : IsGroups groups) (s : List Char) :
    collapse (s ++ groups) = collapse s ++ collapseFrom true groups := by
  cases hg with
  | nil => simp [collapseFrom]
  | group hd h => rw [collapse, collapse, collapseFrom_append_dollar, collapseFrom_dollar]

theorem innermost_append_groups (hg : IsGroups groups) (s : List Char) :
    innermost (s ++ collapseFrom true groups) = innermost s := by
  induction hg generalizing s with
  | nil => simp [collapseFrom]
  | @group digits rest hd h ih =>
    have hone : s ++ '$' :: collapseFrom true rest = s ++ ['$'] ++ collapseFrom true rest := by simp
    rw [collapseFrom_dollar, collapseFrom_digits hd, hone, ih, innermost_append_dollar]

theorem Splits.simpleChars_eq (h : Splits name base groups) :
    simpleChars name = innermost (collapse base) := by
  rw [h.eq_append, simpleChars, collapse_append_groups h.isGroups,
    innermost_append_groups h.isGroups]

theorem collapse_of_not_mem (hs : '$' ∉ s) : collapse s = s := by
  have h := collapseFrom_append hs []
  rw [List.append_nil] at h
  exact h.trans (List.append_nil s)

/-- What follows a dollar sign and its digits is not empty in a base. -/
theorem Splits.rest_ne_nil (h : Splits name base groups) {outer index rest : List Char}
    (hb : base = outer ++ '$' :: (index ++ rest)) (hindex : ∀ d ∈ index, d.isDigit = true) :
    rest ≠ [] := by
  rintro rfl
  exact h.base_ne hindex (by rw [hb, List.append_nil])

theorem Splits.simpleChars_of_saysLast (h : Splits name base groups) (hs : SaysLast base s) :
    simpleChars name = s := by
  rw [h.simpleChars_eq]
  cases hs with
  | @nested outer index _ hb hlast hindex hrest =>
    have hne := h.rest_ne_nil hb hindex
    have hno : '$' ∉ s := fun hmem => hlast (List.mem_append_right index hmem)
    have hkeep : collapseFrom true s = s := by
      obtain ⟨c, cs, rfl⟩ := List.exists_cons_of_ne_nil hne
      rw [collapseFrom_of_not_isDigit (hrest c rfl)]
      exact collapse_of_not_mem hno
    rw [hb, collapse, collapseFrom_append_dollar, collapseFrom_digits hindex, hkeep]
    exact innermost_append_name hne hno _
  | @dotted scope _ hno hb hlast =>
    rw [collapse_of_not_mem hno, innermost_of_not_mem hno, hb, afterLast_append scope hlast]
  | plain hno hdot =>
    rw [collapse_of_not_mem hno, innermost_of_not_mem hno, afterLast_of_not_mem hdot]

/-- A text with a character in it has a last one of it. -/
theorem exists_append_last {c : Char} (h : c ∈ s) : ∃ t u, s = t ++ c :: u ∧ c ∉ u := by
  obtain ⟨u, t, hs, hu⟩ := List.eq_append_cons_of_mem (List.mem_reverse.mpr h)
  refine ⟨t.reverse, u.reverse, ?_, by simpa using hu⟩
  simpa using congrArg List.reverse hs

theorem exists_saysLast (base : List Char) : ∃ s, SaysLast base s := by
  by_cases hdollar : '$' ∈ base
  · obtain ⟨outer, u, hb, hu⟩ := exists_append_last hdollar
    have hsplit : u.takeWhile Char.isDigit ++ u.dropWhile Char.isDigit = u :=
      List.takeWhile_append_dropWhile
    rw [← hsplit] at hb hu
    exact ⟨_, .nested hb hu (fun d hd => List.mem_takeWhile_imp hd) head?_dropWhile⟩
  · by_cases hdot : '.' ∈ base
    · obtain ⟨scope, u, hb, hu⟩ := exists_append_last hdot
      exact ⟨u, .dotted hdollar hb hu⟩
    · exact ⟨base, .plain hdollar hdot⟩

theorem SaysLast.infix_and_not_mem (h : SaysLast base s) : s <:+: base ∧ '$' ∉ s := by
  cases h with
  | @nested outer index _ hb hlast _ _ =>
    refine ⟨⟨outer ++ '$' :: index, [], ?_⟩, fun hmem => hlast (List.mem_append_right index hmem)⟩
    simp [hb]
  | @dotted scope _ hno hb _ =>
    refine ⟨⟨scope ++ ['.'], [], ?_⟩, fun hmem => hno (by simp [hb, hmem])⟩
    simp [hb]
  | plain hno _ => exact ⟨List.infix_refl _, hno⟩

/-- Every name splits into a base and the groups at its end, and its simple name is what the base
says last and nothing else. The simple name is a part of the name that holds no dollar sign, and it
is not empty if the base holds one. -/
theorem simpleOf_saysLast (name : String) :
    (∃ base groups, Splits name.toList base groups) ∧
    (∀ base groups, Splits name.toList base groups →
      (∀ s, SaysLast base s ↔ s = (simpleOf name).toList) ∧
        ('$' ∈ base → simpleOf name ≠ "")) ∧
    (simpleOf name).toList <:+: name.toList ∧ '$' ∉ (simpleOf name).toList := by
  have htext : (simpleOf name).toList = simpleChars name.toList := String.toList_ofList
  have hlast : ∀ base groups, Splits name.toList base groups →
      ∀ s, SaysLast base s ↔ s = (simpleOf name).toList := by
    intro base groups h s
    rw [htext]
    constructor
    · intro hs
      exact (h.simpleChars_of_saysLast hs).symm
    · rintro rfl
      obtain ⟨s, hs⟩ := exists_saysLast base
      rwa [h.simpleChars_of_saysLast hs]
  obtain ⟨base, groups, h⟩ := exists_splits name.toList
  obtain ⟨hpart, hno⟩ := ((hlast base groups h _).mpr rfl).infix_and_not_mem
  refine ⟨⟨base, groups, h⟩, fun base groups h => ⟨hlast base groups h, fun hmem => ?_⟩, ?_, hno⟩
  · intro hempty
    have hs := (hlast base groups h _).mpr rfl
    rw [hempty] at hs
    cases hs with
    | nested hb _ hindex _ => exact h.rest_ne_nil hb hindex rfl
    | dotted hno _ _ => exact hno hmem
    | plain hno _ => exact hno hmem
  · refine hpart.trans ⟨[], groups, ?_⟩
    rw [List.nil_append, h.eq_append]

/-- A nested type behind the index of an anonymous one, with three groups behind it. -/
theorem simpleOf_saysLast_threeGroups :
    let base := "a.B$1$02C".toList
    let groups := "$3$$45".toList
    Splits "a.B$1$02C$3$$45".toList base groups ∧ '$' ∈ base ∧
      simpleOf "a.B$1$02C$3$$45" = "C" ∧ simpleOf "a.B$1$02C$3$$45" ≠ "" := by
  intro base groups
  have hgroups : IsGroups groups := by
    have hdigits : ∀ ds : List Char, ds.all Char.isDigit = true → ∀ d ∈ ds, d.isDigit = true :=
      fun ds => List.all_eq_true.mp
    exact .group (hdigits ['3'] (by decide)) (.group (hdigits [] rfl)
      (.group (hdigits ['4', '5'] (by decide)) .nil))
  have hsplits : Splits "a.B$1$02C$3$$45".toList base groups :=
    .of_letter hgroups (by decide) (by decide) "a.B$1$02".toList
  have hmem : '$' ∈ base := by decide
  obtain ⟨hlast, hne⟩ := (simpleOf_saysLast "a.B$1$02C$3$$45").2.1 base groups hsplits
  have hsays : SaysLast base ['C'] := by
    have hindex : ∀ d ∈ ['0', '2'], d.isDigit = true := List.all_eq_true.mp (by decide)
    refine .nested (by decide : base = "a.B$1".toList ++ '$' :: (['0', '2'] ++ ['C'])) (by decide)
      hindex ?_
    intro c hc
    rw [← Option.some.inj hc]
    decide
  refine ⟨hsplits, hmem, ?_, hne hmem⟩
  rw [← String.toList_inj, ← (hlast ['C']).mp hsays]
  decide

end Depict.TypeName

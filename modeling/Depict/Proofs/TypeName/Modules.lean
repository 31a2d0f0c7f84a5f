import Depict.Proofs.TypeName.Reduction

/-!
# Modules in simple names

The module stands before the nested names of a path, with a dot between them. A module without a
dollar sign never shows in a simple name, and if the nested names hold one before the groups at their
end then no module does. In the only case that is left the last dollar sign of the whole name is one
of the module, so that what follows it there is taken for a part of the innermost name, dot and all.
-/
namespace Depict.TypeName
open Text

/-- A dollar sign shows in the module. -/
def HoldsDollar (m : ModuleTag) : Prop :=
  ∃ tag, m.shown? = some tag ∧ '$' ∈ tag

/-- The nested names of the path hold a dollar sign before the groups at their end. -/
def Nests (path : String) : Prop :=
  ∃ base groups, Splits (nested path.toList) base groups ∧ '$' ∈ base

variable {name base groups tag s : List Char}

theorem mem_intercalate {c d : Char} {ls : List (List Char)} (h : c ∈ List.intercalate [d] ls) :
    c = d ∨ ∃ l ∈ ls, c ∈ l := by
  induction ls with
  | nil => simp at h
  | cons l ls ih =>
    cases ls with
    | nil => exact .inr ⟨l, List.mem_cons_self, by simpa using h⟩
    | cons k ls =>
      rw [List.intercalate_cons_cons] at h
      simp only [List.mem_append, List.mem_singleton] at h
      rcases h with (h | h) | h
      · exact .inr ⟨l, List.mem_cons_self, h⟩
      · exact .inl h
      · refine (ih h).imp_right ?_
        rintro ⟨m, hm, hc⟩
        exact ⟨m, List.mem_cons_of_mem l hm, hc⟩

theorem no_dot_nested (path : List Char) : '.' ∉ nested path := by
  intro h
  rcases mem_intercalate h with h | ⟨l, hl, h⟩
  · contradiction
  · have hpiece := not_mem_of_mem_pieces (List.mem_filter.mp hl).1 _ h
    contradiction

theorem IsGroups.no_dot (h : IsGroups groups) : '.' ∉ groups := by
  intro hmem
  rcases h.eq_or_isDigit _ hmem with h | h <;> contradiction

theorem Splits.unique {base' groups' : List Char} (h : Splits name base groups)
    (h' : Splits name base' groups') : base = base' := by
  have heq : base ++ groups = base' ++ groups' := h.eq_append.symm.trans h'.eq_append
  have hlength : groups.length = groups'.length :=
    Nat.le_antisymm (h'.longest _ _ h.eq_append h.isGroups)
      (h.longest _ _ h'.eq_append h'.isGroups)
  exact (List.append_inj' heq hlength).1

theorem nests_iff {path : String} (h : Splits (nested path.toList) base groups) :
    Nests path ↔ '$' ∈ base := by
  constructor
  · rintro ⟨base', groups', h', hmem⟩
    rwa [h.unique h']
  · exact fun hmem => ⟨base, groups, h, hmem⟩

/-- No group reaches over a dot, so a module before a name leaves its groups as they are. -/
theorem Splits.behind_module (h : Splits name base groups) (tag : List Char) :
    Splits (tag ++ '.' :: name) (tag ++ '.' :: base) groups where
  eq_append := by simp [h.eq_append]
  isGroups := h.isGroups
  longest b g heq hg := by
    have hsuffix : g <:+ tag ++ '.' :: name := heq ▸ List.suffix_append b g
    have hshort : g.length ≤ name.length := by
      by_contra hlong
      have hdot : '.' :: name <:+ g := by
        apply List.suffix_of_suffix_length_le (List.suffix_append tag _) hsuffix
        rw [List.length_cons]
        omega
      exact hg.no_dot (hdot.subset List.mem_cons_self)
    have hname : name <:+ tag ++ '.' :: name := ⟨tag ++ ['.'], by simp⟩
    obtain ⟨b', hb'⟩ := List.suffix_of_suffix_length_le hsuffix hname hshort
    exact h.longest b' g hb'.symm hg

/-- What follows a dollar sign is said last whatever stands before it. -/
theorem SaysLast.behind_of_mem (h : SaysLast base s) (hmem : '$' ∈ base) (before : List Char) :
    SaysLast (before ++ base) s := by
  cases h with
  | @nested outer index _ hb hlast hindex hrest =>
    have hbehind : before ++ base = before ++ outer ++ '$' :: (index ++ s) := by simp [hb]
    exact .nested hbehind hlast hindex hrest
  | dotted hno _ _ => exact absurd hmem hno
  | plain hno _ => exact absurd hmem hno

theorem saysLast_behind_module (htag : '$' ∉ tag) (hbase : '$' ∉ base) (hdot : '.' ∉ base) :
    SaysLast (tag ++ '.' :: base) base := by
  refine .dotted ?_ rfl hdot
  simp [htag, hbase]

/-- What a module says last behind its own dollar sign goes on to the end of the name. -/
theorem SaysLast.before_dot (h : SaysLast tag s) (hmem : '$' ∈ tag) (hbase : '$' ∉ base) :
    SaysLast (tag ++ '.' :: base) (s ++ '.' :: base) := by
  cases h with
  | @nested outer index _ hb hlast hindex hrest =>
    have hwhole : tag ++ '.' :: base = outer ++ '$' :: (index ++ (s ++ '.' :: base)) := by
      simp [hb]
    refine .nested hwhole ?_ hindex ?_
    · rw [← List.append_assoc]
      simpa [hbase] using hlast
    · intro c hc
      rw [List.head?_append] at hc
      cases hs : s.head? with
      | none =>
        obtain rfl : '.' = c := by simpa [hs] using hc
        decide
      | some d =>
        obtain rfl : d = c := by simpa [hs] using hc
        exact hrest d hs
  | dotted hno _ _ => exact absurd hmem hno
  | plain hno _ => exact absurd hmem hno

theorem toList_simple (t : TypeName) : t.simple.toList = simpleChars t.qualifiedChars := by
  rw [simple, simpleOf, qualified, String.toList_ofList, String.toList_ofList]

theorem qualifiedChars_of_shown {m : ModuleTag} (hm : m.shown? = some tag) (path : String) :
    (TypeName.mk m path).qualifiedChars = tag ++ '.' :: nested path.toList := by
  rw [qualifiedChars, hm]

theorem simple_of_not_shown {m : ModuleTag} (hm : m.shown? = none) (path : String) :
    (TypeName.mk m path).simple = (TypeName.mk .absent path).simple := by
  have hq : (TypeName.mk m path).qualifiedChars = (TypeName.mk .absent path).qualifiedChars := by
    rw [qualifiedChars, hm]
    rfl
  rw [simple, simple, qualified, qualified, hq]

theorem simple_absent_of_saysLast {path : String} (h : Splits (nested path.toList) base groups)
    (hs : SaysLast base s) : (TypeName.mk .absent path).simple.toList = s :=
  (toList_simple _).trans (h.simpleChars_of_saysLast hs)

theorem no_dot_of_splits {path : List Char} (h : Splits (nested path) base groups) :
    '.' ∉ base := by
  intro hmem
  apply no_dot_nested path
  rw [h.eq_append]
  exact List.mem_append_left groups hmem

theorem no_dot_simple_absent (path : String) : '.' ∉ (TypeName.mk .absent path).simple.toList := by
  obtain ⟨base, groups, h⟩ := exists_splits (nested path.toList)
  obtain ⟨s, hs⟩ := exists_saysLast base
  rw [simple_absent_of_saysLast h hs]
  exact fun hmem => no_dot_of_splits h (hs.infix_and_not_mem.1.subset hmem)

/-- Of a path whose names hold no dollar sign before their groups, the base is the simple name. -/
theorem simple_absent_of_not_mem {path : String} (h : Splits (nested path.toList) base groups)
    (hbase : '$' ∉ base) : (TypeName.mk .absent path).simple.toList = base :=
  simple_absent_of_saysLast h (.plain hbase (no_dot_of_splits h))

theorem simple_of_saysLast {m : ModuleTag} {path : String} (hm : m.shown? = some tag)
    (h : Splits (nested path.toList) base groups) (hs : SaysLast (tag ++ '.' :: base) s) :
    (TypeName.mk m path).simple.toList = s := by
  rw [toList_simple, qualifiedChars_of_shown hm]
  exact (h.behind_module tag).simpleChars_of_saysLast hs

theorem simple_of_nests {path : String} (hn : Nests path) (m : ModuleTag) :
    (TypeName.mk m path).simple = (TypeName.mk .absent path).simple := by
  obtain ⟨base, groups, h, hmem⟩ := hn
  obtain ⟨s, hs⟩ := exists_saysLast base
  cases hm : m.shown? with
  | none => exact simple_of_not_shown hm path
  | some tag =>
    have hbehind : SaysLast (tag ++ '.' :: base) s := by
      have hall := hs.behind_of_mem hmem (tag ++ ['.'])
      rwa [List.append_assoc, List.singleton_append] at hall
    rw [← String.toList_inj, simple_of_saysLast hm h hbehind, simple_absent_of_saysLast h hs]

theorem simple_of_not_holdsDollar {m : ModuleTag} (hm : ¬ HoldsDollar m) (path : String) :
    (TypeName.mk m path).simple = (TypeName.mk .absent path).simple := by
  by_cases hn : Nests path
  · exact simple_of_nests hn m
  obtain ⟨base, groups, h⟩ := exists_splits (nested path.toList)
  have hbase : '$' ∉ base := mt (nests_iff h).mpr hn
  cases hs : m.shown? with
  | none => exact simple_of_not_shown hs path
  | some tag =>
    have htag : '$' ∉ tag := fun hmem => hm ⟨tag, hs, hmem⟩
    have hbehind := saysLast_behind_module htag hbase (no_dot_of_splits h)
    rw [← String.toList_inj, simple_of_saysLast hs h hbehind, simple_absent_of_not_mem h hbase]

theorem exists_simple_of_holdsDollar {m : ModuleTag} {path : String} (hm : HoldsDollar m)
    (hn : ¬ Nests path) : ∃ tag last, m.shown? = some tag ∧ SaysLast tag last ∧
      (TypeName.mk m path).simple.toList =
        last ++ '.' :: (TypeName.mk .absent path).simple.toList := by
  obtain ⟨tag, hs, hmem⟩ := hm
  obtain ⟨base, groups, h⟩ := exists_splits (nested path.toList)
  obtain ⟨last, hlast⟩ := exists_saysLast tag
  have hbase : '$' ∉ base := mt (nests_iff h).mpr hn
  refine ⟨tag, last, hs, hlast, ?_⟩
  rw [simple_absent_of_not_mem h hbase]
  exact simple_of_saysLast hs h (hlast.before_dot hmem hbase)

/-- No simple name holds a dollar sign. The module makes no difference to it, and it holds no dot,
exactly if no dollar sign shows in the module or the nested names hold one before the groups at their
end. Otherwise it is what the module says last, a dot, and the simple name without the module. -/
theorem simple_module (m : ModuleTag) (path : String) :
    '$' ∉ (TypeName.mk m path).simple.toList ∧
    ((TypeName.mk m path).simple = (TypeName.mk .absent path).simple ↔
      ¬ HoldsDollar m ∨ Nests path) ∧
    ('.' ∉ (TypeName.mk m path).simple.toList ↔ ¬ HoldsDollar m ∨ Nests path) ∧
    (HoldsDollar m → ¬ Nests path → ∃ tag last, m.shown? = some tag ∧ SaysLast tag last ∧
      (TypeName.mk m path).simple.toList =
        last ++ '.' :: (TypeName.mk .absent path).simple.toList) := by
  have hdollar : '$' ∉ (TypeName.mk m path).simple.toList := by
    obtain ⟨base, groups, h⟩ := exists_splits (TypeName.mk m path).qualifiedChars
    obtain ⟨s, hs⟩ := exists_saysLast base
    rw [toList_simple, h.simpleChars_of_saysLast hs]
    exact hs.infix_and_not_mem.2
  have hsame : ¬ HoldsDollar m ∨ Nests path →
      (TypeName.mk m path).simple = (TypeName.mk .absent path).simple := by
    rintro (hm | hn)
    · exact simple_of_not_holdsDollar hm path
    · exact simple_of_nests hn m
  have hdot : '.' ∉ (TypeName.mk m path).simple.toList → ¬ HoldsDollar m ∨ Nests path := by
    intro hno
    by_contra hcond
    obtain ⟨hm, hn⟩ := not_or.mp hcond
    obtain ⟨tag, last, -, -, hs⟩ := exists_simple_of_holdsDollar (not_not.mp hm) hn
    rw [hs] at hno
    exact hno (List.mem_append_right last List.mem_cons_self)
  refine ⟨hdollar, ⟨fun heq => hdot ?_, hsame⟩, ⟨hdot, fun hcond => ?_⟩,
    exists_simple_of_holdsDollar⟩
  · rw [heq]
    exact no_dot_simple_absent path
  · rw [hsame hcond]
    exact no_dot_simple_absent path

/-- Two modules with dollar signs. The first shows before a name that is declared in a function, and
the second does not show before one that is declared in a type. -/
theorem simple_module_dollars :
    HoldsDollar (.name "a$1b$20c") ∧ ¬ Nests "<locals>.X$2" ∧
      (∃ last, (TypeName.mk (.name "a$1b$20c") "<locals>.X$2").simple.toList = last ++ ".X".toList) ∧
      Nests "A.B$2" ∧ (TypeName.mk (.name "a$b") "A.B$2").simple = "B" := by
  have hgroup : IsGroups "$2".toList :=
    .group (List.all_eq_true.mp (by decide : ['2'].all Char.isDigit = true)) .nil
  have hsole : Splits (nested "<locals>.X$2".toList) ['X'] "$2".toList :=
    .of_letter hgroup (by decide) (by decide) []
  have hinner : Splits (nested "A.B$2".toList) "A$B".toList "$2".toList :=
    .of_letter hgroup (by decide) (by decide) "A$".toList
  have hm : HoldsDollar (.name "a$1b$20c") := ⟨"a$1b$20c".toList, rfl, by decide⟩
  have hn : ¬ Nests "<locals>.X$2" := by
    rw [nests_iff hsole]
    decide
  have hnests : Nests "A.B$2" := (nests_iff hinner).mpr (by decide)
  have hX : (TypeName.mk .absent "<locals>.X$2").simple = "X" := by decide
  obtain ⟨tag, last, -, -, hshown⟩ :=
    (simple_module (.name "a$1b$20c") "<locals>.X$2").2.2.2 hm hn
  rw [hX] at hshown
  have hsame := (simple_module (.name "a$b") "A.B$2").2.1.mpr (.inr hnests)
  exact ⟨hm, hn, ⟨last, hshown⟩, hnests, hsame.trans (by decide)⟩

/-- A dollar sign in a module can bring the module into a simple name. -/
theorem simple_module_shows :
    (TypeName.mk (.name "a$b") "X").simple = "b.X" ∧
      (TypeName.mk .absent "X").simple = "X" ∧
      ¬ ((TypeName.mk (.name "a$b") "X").simple = (TypeName.mk .absent "X").simple ∧
        '.' ∉ (TypeName.mk (.name "a$b") "X").simple.toList ∧
        '$' ∉ (TypeName.mk (.name "a$b") "X").simple.toList) := by
  decide

end Depict.TypeName

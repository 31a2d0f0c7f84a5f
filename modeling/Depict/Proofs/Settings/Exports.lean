import Depict.Proofs.Settings.Layout

/-!
# Exported lines

The word export may stand before a declaration. It is known by the space that directly follows it;
the blanks behind that do not matter, and what is then left is read as if it stood alone. With a tab
in the place of that space the word counts as a part of the key.
-/
namespace Depict.Dotenv
open Text

/-- The word export without the space after it. -/
def exportName : List Char :=
  ['e', 'x', 'p', 'o', 'r', 't']

/-- Spaces and tabs, at least one. -/
structure IsGap (gap : List Char) : Prop where
  ne_nil : gap ≠ []
  chars : ∀ c ∈ gap, c = ' ' ∨ c = '\t'

/-- The line with the word export and a gap before it. -/
def exported (gap line : List Char) : List Char :=
  exportName ++ gap ++ line

/-- The trimmed line begins with the word export and a blank. -/
def IsExported (line : List Char) : Prop :=
  ∃ c rest, isBlank c = true ∧ trim line = exportName ++ c :: rest

/-- Nothing but blanks stands before the first equals sign. -/
def IsKeyless (line : List Char) : Prop :=
  ∃ before rest, (∀ c ∈ before, isBlank c = true) ∧ line = before ++ '=' :: rest

variable {gap line before after : List Char}

theorem exportWord_eq : exportWord = exportName ++ [' '] := rfl

theorem IsGap.isBlank (h : IsGap gap) : ∀ c ∈ gap, Text.isBlank c = true := by
  intro c hc
  rcases h.chars c hc with rfl | rfl <;> decide

theorem IsGap.no_equals (h : IsGap gap) : '=' ∉ gap := by
  intro hc
  rcases h.chars _ hc with h | h <;> contradiction

theorem IsGap.cases (h : IsGap gap) :
    (∃ rest, gap = ' ' :: rest) ∨ ∃ rest, gap = '\t' :: rest := by
  obtain ⟨c, rest, rfl⟩ := List.exists_cons_of_ne_nil h.ne_nil
  rcases h.chars c List.mem_cons_self with rfl | rfl
  · exact .inl ⟨rest, rfl⟩
  · exact .inr ⟨rest, rfl⟩

theorem dropWhile_parts (before rest : List Char) :
    (before ++ '=' :: rest).dropWhile isBlank = before.dropWhile isBlank ++ '=' :: rest := by
  rw [List.dropWhile_append]
  split
  · next h =>
    rw [List.isEmpty_iff.mp h]
    exact List.dropWhile_cons_of_neg (by decide)
  · rfl

theorem trim_parts (before after : List Char) :
    trim (before ++ '=' :: after) = before.dropWhile isBlank ++ '=' :: dropEnd isBlank after := by
  rw [trim, trimBy, dropWhile_parts, dropEnd_append_cons (by decide)]

/-- What a line declares is decided by what is left of it behind the word export. -/
theorem declaration?_congr {line' : List Char}
    (h : dropExport (trim line) = dropExport (trim line')) : declaration? line = declaration? line' := by
  rw [declaration?, declaration?, h]

theorem dropExport_of_not_isExported (h : ¬ IsExported line) : dropExport (trim line) = trim line := by
  apply if_neg
  intro hprefix
  obtain ⟨rest, hrest⟩ := List.isPrefixOf_iff_prefix.mp hprefix
  exact h ⟨' ', rest, by decide, hrest.symm⟩

/-- Trimming takes nothing that stands before the equals sign of an exported line. -/
theorem trim_exported (gap before after : List Char) :
    trim (exported gap (before ++ '=' :: after)) =
      exportName ++ (gap ++ before) ++ '=' :: dropEnd isBlank after := by
  have hparts : exported gap (before ++ '=' :: after) =
      (exportName ++ (gap ++ before)) ++ '=' :: after := by simp [exported]
  have hword : (exportName ++ (gap ++ before)).dropWhile isBlank = exportName ++ (gap ++ before) :=
    List.dropWhile_cons_of_neg (by decide)
  rw [hparts, trim_parts, hword]

/-- Behind a space the gap ends with its blanks, and the line is left as it is trimmed. -/
theorem dropExport_exported_space (hgap : ∀ c ∈ gap, isBlank c = true) (before after : List Char) :
    dropExport (trim (exported (' ' :: gap) (before ++ '=' :: after))) =
      trim (before ++ '=' :: after) := by
  have hword : exportName ++ (' ' :: gap ++ before) ++ '=' :: dropEnd isBlank after =
      exportWord ++ (gap ++ (before ++ '=' :: dropEnd isBlank after)) := by
    simp [exportWord_eq]
  have hprefix : exportWord.isPrefixOf
      (exportWord ++ (gap ++ (before ++ '=' :: dropEnd isBlank after))) = true := by simp
  rw [trim_exported, hword, dropExport, if_pos hprefix, List.drop_left,
    List.dropWhile_append_of_pos hgap, dropWhile_parts, trim_parts]

theorem dropExport_exported_tab (gap before after : List Char) :
    dropExport (trim (exported ('\t' :: gap) (before ++ '=' :: after))) =
      exportName ++ ('\t' :: gap ++ before) ++ '=' :: dropEnd isBlank after := by
  rw [trim_exported]
  exact if_neg Bool.false_ne_true

theorem no_equals_exported (hgap : IsGap gap) (hline : '=' ∉ line) : '=' ∉ exported gap line := by
  have hname : '=' ∉ exportName := by decide
  simp [exported, hname, hgap.no_equals, hline]

theorem declaration?_exported_space (hgap : ∀ c ∈ gap, isBlank c = true)
    (hword : ¬ IsExported (before ++ '=' :: after)) :
    declaration? (exported (' ' :: gap) (before ++ '=' :: after)) =
      declaration? (before ++ '=' :: after) := by
  apply declaration?_congr
  rw [dropExport_exported_space hgap, dropExport_of_not_isExported hword]

theorem trim_exportName_append (s : List Char) :
    trim (exportName ++ s) = exportName ++ dropEnd isBlank s := by
  have hdrop : (exportName ++ s).dropWhile isBlank = ['e', 'x', 'p', 'o', 'r'] ++ 't' :: s :=
    List.dropWhile_cons_of_neg (by decide)
  rw [trim, trimBy, hdrop, dropEnd_append_cons (by decide)]
  rfl

/-- The word export, a tab and what stands before the equals sign make the key. -/
theorem declaration?_exported_tab (hgap : '=' ∉ gap) (hbefore : '=' ∉ before) :
    declaration? (exported ('\t' :: gap) (before ++ '=' :: after)) =
      some (exportName ++ dropEnd isBlank ('\t' :: gap ++ before), unquote after) := by
  have hname : '=' ∉ exportName := by decide
  have hequals : '=' ∉ exportName ++ ('\t' :: gap ++ before) := by simp [hname, hgap, hbefore]
  have hkey : exportName ++ dropEnd isBlank ('\t' :: gap ++ before) ≠ [] := List.cons_ne_nil _ _
  rw [declaration?_of_parts (dropExport_exported_tab gap before after) hequals (by simp [exportName]),
    trim_exportName_append, if_neg hkey, unquote_dropEnd]

theorem declaration?_parts (hword : ¬ IsExported (before ++ '=' :: after)) (hbefore : '=' ∉ before)
    (hcomment : (before.dropWhile isBlank).head? ≠ some '#') :
    declaration? (before ++ '=' :: after) =
      if trim before = [] then none else some (trim before, unquote after) := by
  have hbody : dropExport (trim (before ++ '=' :: after)) =
      before.dropWhile isBlank ++ '=' :: dropEnd isBlank after := by
    rw [dropExport_of_not_isExported hword, trim_parts]
  have hequals : '=' ∉ before.dropWhile isBlank :=
    fun h => hbefore ((List.dropWhile_suffix _).subset h)
  have htrim : trim (before.dropWhile isBlank) = trim before := by
    rw [trim, trim, trimBy, trimBy, List.dropWhile_idempotent]
  rw [declaration?_of_parts hbody hequals hcomment, htrim, unquote_dropEnd]

theorem trim_eq_nil_iff {s : List Char} : trim s = [] ↔ ∀ c ∈ s, isBlank c = true := by
  constructor
  · intro h
    obtain ⟨-, blanks, blanks', hb, hb', rfl⟩ := trimBy_eq_iff.mp h
    simp only [List.append_nil, List.mem_append]
    rintro c (hc | hc)
    · exact hb c hc
    · exact hb' c hc
  · intro h
    rw [trim, trimBy, List.dropWhile_eq_nil_iff.mpr h, dropEnd_eq_rdropWhile, List.rdropWhile_nil]

theorem idle_of_head? (h : (before.dropWhile isBlank).head? = some '#') (rest : List Char) :
    Idle (before ++ rest) := by
  obtain ⟨text, htext⟩ := List.head?_eq_some_iff.mp h
  have hparts : before ++ rest = before.takeWhile isBlank ++ '#' :: (text ++ rest) := by
    rw [← List.cons_append, ← htext, ← List.append_assoc, List.takeWhile_append_dropWhile]
  rw [hparts]
  exact .comment (fun c hc => List.mem_takeWhile_imp hc) _

/-- Without the word export before it, a line declares nothing exactly if it is idle or has no key. -/
theorem pair?_eq_none_iff (hword : ¬ IsExported line) :
    pair? line = none ↔ Idle line ∨ IsKeyless line := by
  constructor
  · intro h
    by_cases hequals : '=' ∈ line
    · obtain ⟨before, after, rfl, hbefore⟩ := List.eq_append_cons_of_mem hequals
      by_cases hcomment : (before.dropWhile isBlank).head? = some '#'
      · exact .inl (idle_of_head? hcomment _)
      · rw [pair?, declaration?_parts hword hbefore hcomment, Option.map_eq_none_iff] at h
        have hblank : trim before = [] := by simpa using h
        exact .inr ⟨before, after, trim_eq_nil_iff.mp hblank, rfl⟩
    · exact .inl (.unassigned hequals)
  · rintro (h | ⟨before, after, hblank, rfl⟩)
    · exact pair?_of_idle h
    · have hbefore : '=' ∉ before := fun h => absurd (hblank _ h) (by decide)
      have hcomment : (before.dropWhile isBlank).head? ≠ some '#' := by
        rw [List.dropWhile_eq_nil_iff.mpr hblank]
        simp
      rw [pair?, declaration?_parts hword hbefore hcomment, if_pos (trim_eq_nil_iff.mpr hblank),
        Option.map_none]

theorem key_of_declaration? {key value : List Char} (hword : ¬ IsExported (before ++ '=' :: after))
    (hbefore : '=' ∉ before) (h : declaration? (before ++ '=' :: after) = some (key, value)) :
    key = trim before := by
  by_cases hcomment : (before.dropWhile isBlank).head? = some '#'
  · have hnone := pair?_of_idle (idle_of_head? hcomment ('=' :: after))
    rw [pair?, h] at hnone
    cases hnone
  · rw [declaration?_parts hword hbefore hcomment] at h
    split at h
    · cases h
    · exact (Prod.mk.inj (Option.some.inj h)).1.symm

/-- Behind a tab the key is longer than that of the line. -/
theorem pair?_exported_tab_ne (hgap : IsGap ('\t' :: gap))
    (hword : ¬ IsExported (before ++ '=' :: after)) (hbefore : '=' ∉ before) :
    pair? (exported ('\t' :: gap) (before ++ '=' :: after)) ≠ pair? (before ++ '=' :: after) := by
  have hno : '=' ∉ gap := fun h => hgap.no_equals (List.mem_cons_of_mem _ h)
  rw [pair?, declaration?_exported_tab hno hbefore]
  intro heq
  obtain ⟨⟨key, value⟩, hdeclared, hkey⟩ := Option.map_eq_some_iff.mp heq.symm
  have hlong : key = exportName ++ dropEnd isBlank ('\t' :: gap ++ before) :=
    String.ofList_inj.mp (Prod.mk.inj hkey).1
  have hshort : key = trimBy isBlank (dropEnd isBlank ('\t' :: gap ++ before)) := by
    rw [key_of_declaration? hword hbefore hdeclared, trimBy_dropEnd]
    have htrim := trimBy_append hgap.isBlank (by simp : ∀ c ∈ [], isBlank c = true) before
    simpa [trim] using htrim.symm
  have hle := length_trimBy_le isBlank (dropEnd isBlank ('\t' :: gap ++ before))
  have hname : exportName.length = 6 := rfl
  rw [← hshort, hlong, List.length_append] at hle
  omega

/-- Only a space directly behind the word export makes no difference to a line that declares something. -/
theorem pair?_exported_iff (hgap : IsGap gap) (hword : ¬ IsExported line) :
    pair? (exported gap line) = pair? line ↔ gap.head? = some ' ' ∨ '=' ∉ line := by
  by_cases hequals : '=' ∈ line
  · obtain ⟨before, after, rfl, hbefore⟩ := List.eq_append_cons_of_mem hequals
    rcases hgap.cases with ⟨rest, rfl⟩ | ⟨rest, rfl⟩
    · have hblank : ∀ c ∈ rest, isBlank c = true :=
        fun c hc => hgap.isBlank c (List.mem_cons_of_mem _ hc)
      simp [pair?, declaration?_exported_space hblank hword]
    · simp [pair?_exported_tab_ne hgap hword hbefore]
  · simp [pair?_of_not_mem (no_equals_exported hgap hequals), pair?_of_not_mem hequals, hequals]

end Depict.Dotenv

namespace Depict.Source
open Dotenv Text

theorem load_line (path : String) {line : List Char} (h : ∀ c ∈ line, isLineBreak c = false) :
    (content (Utf8.encode line)).load path = .ok (pair? line).toList := by
  rw [load_content_encode, parse_eq_putAll, declarations_of_forall h, List.filterMap_cons]
  cases pair? line <;> rfl

theorem not_isLineBreak_exported {gap line : List Char} (hgap : IsGap gap)
    (hline : ∀ c ∈ line, isLineBreak c = false) :
    ∀ c ∈ exported gap line, isLineBreak c = false := by
  have hname : ∀ c ∈ exportName, isLineBreak c = false := no_break_of_all (by decide)
  intro c hc
  rcases List.mem_append.mp hc with hc | hc
  · rcases List.mem_append.mp hc with hc | hc
    · exact hname c hc
    · rcases hgap.chars c hc with rfl | rfl <;> decide
  · exact hline c hc

/-- A line that is not exported itself declares one key with a value, or nothing if it is idle or has
no key. With the word export and a gap before it, it declares the same exactly if the gap begins with
a space or the line has no equals sign. Behind a tab the key is all that stands before the equals
sign, the word export included. -/
theorem load_exported (path : String) {gap line : List Char} (hgap : IsGap gap)
    (hline : ∀ c ∈ line, isLineBreak c = false) (hword : ¬ IsExported line) :
    ((content (Utf8.encode (exported gap line))).load path =
        (content (Utf8.encode line)).load path ↔ gap.head? = some ' ' ∨ '=' ∉ line) ∧
    ((content (Utf8.encode line)).load path = .ok [] ↔ Idle line ∨ IsKeyless line) ∧
    ((∃ p, (content (Utf8.encode line)).load path = .ok [p]) ↔ ¬ (Idle line ∨ IsKeyless line)) ∧
    ∀ rest before after, gap = '\t' :: rest → line = before ++ '=' :: after → '=' ∉ before →
      (content (Utf8.encode (exported gap line))).load path =
        .ok [(String.ofList (exportName ++ dropEnd isBlank (gap ++ before)),
          String.ofList (unquote after))] := by
  have hexported := not_isLineBreak_exported hgap hline
  rw [load_line path hline, load_line path hexported, ← pair?_eq_none_iff hword,
    ← pair?_exported_iff hgap hword]
  refine ⟨?_, ?_, ?_, ?_⟩
  · rw [Except.ok.injEq]
    cases pair? (exported gap line) <;> cases pair? line <;> simp
  · cases pair? line <;> simp
  · cases pair? line <;> simp
  · rintro rest before after rfl rfl hbefore
    have hrest : '=' ∉ rest := fun h => hgap.no_equals (List.mem_cons_of_mem _ h)
    rw [pair?, declaration?_exported_tab hrest hbefore]
    rfl

/-- A key behind a space, two tabs and blanks of its own line, with the word export in it. -/
theorem load_exported_spaceFirst :
    let gap := " \t\t".toList
    let line := "\u00a0exportable = 'x y' ".toList
    IsGap gap ∧ (∀ c ∈ line, isLineBreak c = false) ∧ ¬ IsExported line ∧
      (content (Utf8.encode (exported gap line))).load ".env" = .ok [("exportable", "x y")] := by
  intro gap line
  have hgap : IsGap gap := ⟨by decide, by simp [gap]⟩
  have hline : ∀ c ∈ line, isLineBreak c = false := no_break_of_all (by decide)
  have hword : ¬ IsExported line := by
    have htrim : trim line = exportName ++ "able = 'x y'".toList := by decide
    rintro ⟨c, rest, hc, hrest⟩
    rw [htrim] at hrest
    obtain rfl : 'a' = c := (List.cons.inj (List.append_cancel_left hrest)).1
    contradiction
  refine ⟨hgap, hline, hword, ((load_exported ".env" hgap hline hword).1.mpr (.inl rfl)).trans ?_⟩
  rw [load_line ".env" hline]
  decide

/-- With a tab behind it the word export becomes a part of the key. -/
theorem load_exported_tabFirst :
    let line := "A=1".toList
    IsGap ['\t'] ∧ (∀ c ∈ line, isLineBreak c = false) ∧ ¬ IsExported line ∧
      (content (Utf8.encode line)).load ".env" = .ok [("A", "1")] ∧
      (content (Utf8.encode (exported ['\t'] line))).load ".env" = .ok [("export\tA", "1")] ∧
      (content (Utf8.encode (exported ['\t'] line))).load ".env" ≠
        (content (Utf8.encode line)).load ".env" := by
  intro line
  have hgap : IsGap ['\t'] := ⟨by decide, by simp⟩
  have hline : ∀ c ∈ line, isLineBreak c = false := no_break_of_all (by decide)
  have hword : ¬ IsExported line := by
    have htrim : trim line = ['A', '=', '1'] := by decide
    rintro ⟨c, rest, -, hrest⟩
    rw [htrim] at hrest
    cases hrest
  rw [load_line ".env" hline, load_line ".env" (not_isLineBreak_exported hgap hline)]
  exact ⟨hgap, hline, hword, by decide⟩

end Depict.Source

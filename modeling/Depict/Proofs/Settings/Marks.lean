import Depict.Proofs.Settings.Printing

/-!
# Marks around values

A value loses all single marks at its ends, and then all double marks that are at its ends. So
double marks keep every value that holds none. Single marks keep a value only if it has no double
mark at an end of its own, and without marks around it a value is kept only if it has none of either
kind there.
-/
namespace Depict.Dotenv
open Text

/-- A letter, a digit or an underscore, all of them ASCII. -/
def isWordChar (c : Char) : Bool :=
  let n := c.toNat
  (48 ≤ n && n ≤ 57) || (65 ≤ n && n ≤ 90) || n == 95 || (97 ≤ n && n ≤ 122)

/-- A key of such characters. -/
structure IsWord (key : List Char) : Prop where
  ne_nil : key ≠ []
  chars : ∀ c ∈ key, isWordChar c = true

/-- A line that gives a value to a key. -/
def assignment (key value : List Char) : List Char :=
  key ++ '=' :: value

/-- What is left of a value: without the blanks at its ends, without the single marks that are then
there, and without the double marks that are there at last. -/
def Remains (value kept : List Char) : Prop :=
  ∃ trimmed inner, Peeled isBlank value trimmed ∧ Peeled (· == '\x27') trimmed inner ∧
    Peeled (· == '\x22') inner kept

variable {key value : List Char}

/-- A word is a key, and holds no space. -/
theorem IsWord.isKey (h : IsWord key) : IsKey key ∧ ' ' ∉ key := by
  have hchar : ∀ c ∈ key, isBlank c = false ∧ isLineBreak c = false ∧ c ≠ '#' ∧ c ≠ '=' := by
    intro c hc
    have hn := h.chars c hc
    simp only [isWordChar, Bool.or_eq_true, Bool.and_eq_true, decide_eq_true_eq, beq_iff_eq] at hn
    refine ⟨?_, ?_, ?_, ?_⟩
    · simp [isBlank]
      omega
    · simp [isLineBreak]
      omega
    · rintro rfl
      simp at hn
    · rintro rfl
      simp at hn
  refine ⟨⟨h.ne_nil, ⟨fun c hc => ?_, fun c hc => ?_⟩, fun hc => ?_, fun hc => ?_, fun c hc => ?_⟩,
    fun hc => ?_⟩
  · exact (hchar c (List.mem_of_head? hc)).1
  · exact (hchar c (List.mem_of_getLast? hc)).1
  · exact (hchar _ (List.mem_of_head? hc)).2.2.1 rfl
  · exact (hchar _ hc).2.2.2 rfl
  · exact (hchar c hc).2.1
  · have hblank := (hchar _ hc).1
    contradiction

theorem trim_assignment (hkey : IsKey key) (value : List Char) :
    trim (assignment key value) = assignment key (dropEnd isBlank value) := by
  obtain ⟨c, s, rfl⟩ := List.exists_cons_of_ne_nil hkey.ne_nil
  have hc : isBlank c = false := hkey.bare.head c rfl
  have htrim := trimBy_append_cons (fun d hd => absurd hd List.not_mem_nil) hc (s ++ '=' :: value)
  rw [dropEnd_append_cons (by decide)] at htrim
  exact htrim

/-- The word export stands before a space, and a key without one is not it. -/
theorem dropExport_assignment (hspace : ' ' ∉ key) (value : List Char) :
    dropExport (assignment key value) = assignment key value := by
  apply if_neg
  intro hprefix
  obtain ⟨rest, hrest⟩ := List.isPrefixOf_iff_prefix.mp hprefix
  rcases List.append_eq_append_iff.mp hrest with ⟨s, hkey, -⟩ | ⟨s, hword, hs⟩
  · apply hspace
    rw [hkey]
    simp [exportWord]
  · cases s with
    | nil =>
      apply hspace
      rw [List.append_nil] at hword
      rw [← hword]
      decide
    | cons d s =>
      obtain rfl : '=' = d := (List.cons.inj hs).1
      have hequals : '=' ∈ exportWord := by
        rw [hword]
        simp
      exact absurd hequals (by decide)

theorem pair?_assignment (hkey : IsWord key) (value : List Char) :
    pair? (assignment key value) = some (String.ofList key, String.ofList (unquote value)) := by
  obtain ⟨hkey, hspace⟩ := hkey.isKey
  have hbody : dropExport (trim (assignment key value)) =
      assignment key (dropEnd isBlank value) := by
    rw [trim_assignment hkey, dropExport_assignment hspace]
  rw [pair?, declaration?_of_body hkey hbody, unquote_dropEnd, Option.map_some]

theorem parse_assignment (hkey : IsWord key) (hvalue : ∀ c ∈ value, isLineBreak c = false) :
    parse (assignment key value) = [(String.ofList key, String.ofList (unquote value))] := by
  have hline : ∀ c ∈ assignment key value, isLineBreak c = false := by
    intro c hc
    rcases List.mem_append.mp hc with hc | hc
    · exact hkey.isKey.1.no_break c hc
    · rcases List.mem_cons.mp hc with rfl | hc
      · decide
      · exact hvalue c hc
  rw [parse_eq_putAll, declarations_of_forall hline, List.filterMap_cons, pair?_assignment hkey]
  rfl

theorem remains_iff {kept : List Char} : Remains value kept ↔ unquote value = kept := by
  constructor
  · rintro ⟨trimmed, inner, hblank, hsingle, hdouble⟩
    rw [unquote, trim, trimBy_eq_iff.mpr hblank, trimBy_eq_iff.mpr hsingle,
      trimBy_eq_iff.mpr hdouble]
  · rintro rfl
    exact ⟨_, _, trimBy_eq_iff.mp rfl, trimBy_eq_iff.mp rfl, trimBy_eq_iff.mp rfl⟩

/-- Single marks protect the blanks of a value, but no double mark at its ends. -/
theorem unquote_single (h : '\x27' ∉ value) :
    unquote ('\x27' :: value ++ ['\x27']) = trimBy (· == '\x22') value := by
  have hbare : Bare isBlank ('\x27' :: value ++ ['\x27']) := by
    refine ⟨fun c hc => ?_, fun c hc => ?_⟩
    · rw [← Option.some.inj hc]
      decide
    · rw [List.getLast?_concat] at hc
      rw [← Option.some.inj hc]
      decide
  rw [unquote, trim, trimBy_of_bare hbare, trimBy_marked (bare_of_not_mem h) (by decide)]

/-- A value is only trimmed if neither kind of marks is at one of its ends. -/
theorem unquote_eq_trim_iff : unquote value = trim value ↔
    Bare (· == '\x27') (trim value) ∧ Bare (· == '\x22') (trim value) := by
  constructor
  · intro h
    have hinner : trimBy (· == '\x27') (trim value) = trim value := by
      -- both steps only take characters away, so the first one takes none
      obtain ⟨-, before, after, -, -, hsplit⟩ :=
        trimBy_eq_iff.mp (Eq.refl (trimBy (· == '\x27') (trim value)))
      have hshort := length_trimBy_le (· == '\x22') (trimBy (· == '\x27') (trim value))
      have hlength := congrArg List.length hsplit
      have hwhole := congrArg List.length h
      simp only [List.length_append] at hlength
      rw [unquote] at hwhole
      have hbefore : before = [] := List.eq_nil_of_length_eq_zero (by omega)
      have hafter : after = [] := List.eq_nil_of_length_eq_zero (by omega)
      rw [hbefore, hafter, List.nil_append, List.append_nil] at hsplit
      exact hsplit.symm
    rw [unquote, hinner] at h
    exact ⟨trimBy_eq_self_iff.mp hinner, trimBy_eq_self_iff.mp h⟩
  · rintro ⟨hsingle, hdouble⟩
    rw [unquote, trimBy_of_bare hsingle, trimBy_of_bare hdouble]

end Depict.Dotenv

namespace Depict.Source
open Dotenv Text

/-- The file with this one line is loaded as one key with its value. -/
def LoadsAs (path : String) (line key value : List Char) : Prop :=
  (content (Utf8.encode line)).load path = .ok [(String.ofList key, String.ofList value)]

theorem loadsAs_iff {path : String} {key value kept : List Char} (hkey : IsWord key)
    (hvalue : ∀ c ∈ value, isLineBreak c = false) :
    LoadsAs path (assignment key value) key kept ↔ unquote value = kept := by
  rw [LoadsAs, load_content_encode, parse_assignment hkey hvalue]
  simp [String.ofList_inj]

/-- A line that gives a value to a word declares the word with what remains of the value. Double
marks keep every value without double marks. Single marks keep a value without single marks exactly
if it has no double mark at its ends. A value is only trimmed exactly if it has no mark of either
kind at its trimmed ends. -/
theorem loadsAs_marked (path : String) {key value : List Char} (hkey : IsWord key)
    (hvalue : ∀ c ∈ value, isLineBreak c = false) :
    (∃ kept, LoadsAs path (assignment key value) key kept) ∧
    (∀ kept, LoadsAs path (assignment key value) key kept ↔ Remains value kept) ∧
    ('\x22' ∉ value →
      LoadsAs path (assignment key ('\x22' :: value ++ ['\x22'])) key value) ∧
    ('\x27' ∉ value →
      (LoadsAs path (assignment key ('\x27' :: value ++ ['\x27'])) key value ↔
        Bare (· == '\x22') value)) ∧
    (LoadsAs path (assignment key value) key (trim value) ↔
      Bare (· == '\x27') (trim value) ∧ Bare (· == '\x22') (trim value)) := by
  have hmarked : ∀ mark, isLineBreak mark = false →
      ∀ c ∈ mark :: value ++ [mark], isLineBreak c = false := by
    intro mark hmark c hc
    simp only [List.cons_append, List.mem_cons, List.mem_append, List.not_mem_nil, or_false] at hc
    rcases hc with rfl | hc | rfl
    · exact hmark
    · exact hvalue c hc
    · exact hmark
  refine ⟨⟨_, (loadsAs_iff hkey hvalue).mpr rfl⟩, fun kept => ?_, fun hdouble => ?_,
    fun hsingle => ?_, ?_⟩
  · rw [loadsAs_iff hkey hvalue, remains_iff]
  · rw [loadsAs_iff hkey (hmarked _ (by decide))]
    exact unquote_marked ⟨bare_of_not_mem hdouble, hvalue⟩
  · rw [loadsAs_iff hkey (hmarked _ (by decide)), unquote_single hsingle, trimBy_eq_self_iff]
  · rw [loadsAs_iff hkey hvalue, unquote_eq_trim_iff]

/-- An apostrophe between double marks, a quotation inside a text between single marks, and an
apostrophe without marks around it. -/
theorem loadsAs_marked_inside :
    let key := "A_1".toList
    let apostrophe := " it's ".toList
    let quotation := "the \"b\" key".toList
    IsWord key ∧ (∀ c ∈ apostrophe, isLineBreak c = false) ∧ '\x22' ∉ apostrophe ∧
      (∀ c ∈ quotation, isLineBreak c = false) ∧ '\x27' ∉ quotation ∧
      LoadsAs ".env" (assignment key ('\x22' :: apostrophe ++ ['\x22'])) key apostrophe ∧
      LoadsAs ".env" (assignment key ('\x27' :: quotation ++ ['\x27'])) key quotation ∧
      LoadsAs ".env" (assignment key apostrophe) key "it's".toList := by
  intro key apostrophe quotation
  have hkey : IsWord key := ⟨by decide, List.all_eq_true.mp (by decide)⟩
  have happlain : ∀ c ∈ apostrophe, isLineBreak c = false :=
    no_break_of_all (by decide)
  have hquplain : ∀ c ∈ quotation, isLineBreak c = false :=
    no_break_of_all (by decide)
  have hdouble : '\x22' ∉ apostrophe := by decide
  have hsingle : '\x27' ∉ quotation := by decide
  obtain ⟨-, -, hap, -, haptrim⟩ := loadsAs_marked ".env" hkey happlain
  obtain ⟨-, -, -, hqu, -⟩ := loadsAs_marked ".env" hkey hquplain
  exact ⟨hkey, happlain, hdouble, hquplain, hsingle, hap hdouble, (hqu hsingle).mpr (by decide),
    haptrim.mpr (by decide)⟩

/-- A quotation at the end of a text between single marks loses its mark, and so does a length in
inches, whose one mark is no pair. -/
theorem loadsAs_marked_lost :
    '\x27' ∉ "say \"hi\"".toList ∧
      ¬ LoadsAs ".env" "A='say \"hi\"'".toList ['A'] "say \"hi\"".toList ∧
      LoadsAs ".env" "A='say \"hi\"'".toList ['A'] "say \"hi".toList ∧
      ¬ LoadsAs ".env" "A=5\"".toList ['A'] "5\"".toList ∧
      LoadsAs ".env" "A=5\"".toList ['A'] ['5'] := by
  have hkey : IsWord ['A'] := ⟨by decide, List.all_eq_true.mp (by decide)⟩
  have hquoted : "A='say \"hi\"'".toList = assignment ['A'] "'say \"hi\"'".toList := by decide
  have hinches : "A=5\"".toList = assignment ['A'] "5\"".toList := by decide
  have hqvalue : ∀ c ∈ "'say \"hi\"'".toList, isLineBreak c = false :=
    no_break_of_all (by decide)
  have hivalue : ∀ c ∈ "5\"".toList, isLineBreak c = false := no_break_of_all (by decide)
  rw [hquoted, hinches, loadsAs_iff hkey hqvalue, loadsAs_iff hkey hqvalue,
    loadsAs_iff hkey hivalue, loadsAs_iff hkey hivalue]
  decide

end Depict.Source

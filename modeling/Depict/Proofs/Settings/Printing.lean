import Depict.Proofs.Settings.Declarations
import Depict.Proofs.Text.Utf8
import Depict.Settings.Store

/-!
# Printing declarations

A map is printed with the word export before each pair and with double marks around each value.
The printed form declares the map again, so the maps that files declare are exactly those that
can be declared.
-/
namespace Depict.Dotenv
open Text

/-- The line for a pair: the word export, the key, and the value between double marks. -/
def printLine (p : String × String) : List Char :=
  "export ".toList ++ p.1.toList ++ '=' :: '\x22' :: p.2.toList ++ ['\x22']

/-- A map as a text, one line for each pair. -/
def print (ps : Pairs) : List Char :=
  ps.flatMap fun p => printLine p ++ ['\n']

/-- What stands behind the word export in the line for a pair. -/
def printBody (p : String × String) : List Char :=
  p.1.toList ++ '=' :: ('\x22' :: p.2.toList ++ ['\x22'])

theorem printLine_eq (p : String × String) : printLine p = exportWord ++ printBody p := by
  have h : "export ".toList = exportWord := by decide
  unfold printLine printBody
  simp only [h, List.append_assoc, List.cons_append]

theorem dropExport_printLine {p : String × String} (hkey : IsKey p.1.toList) :
    dropExport (trim (printLine p)) = printBody p := by
  have hbare : Bare isBlank (printLine p) := by
    rw [printLine_eq]
    refine ⟨fun c hc => ?_, fun c hc => ?_⟩
    · rw [← Option.some.inj hc]
      decide
    · have hlast : (exportWord ++ printBody p).getLast? = some '\x22' := by
        rw [printBody, ← List.cons_append, ← List.append_assoc, ← List.append_assoc,
          List.getLast?_concat]
      rw [hlast] at hc
      rw [← Option.some.inj hc]
      decide
  have hbody : (printBody p).dropWhile isBlank = printBody p := by
    obtain ⟨c, s, hs⟩ := List.exists_cons_of_ne_nil hkey.ne_nil
    have hkeep : isBlank c = false := hkey.bare.head c (by rw [hs]; rfl)
    rw [printBody, hs]
    exact List.dropWhile_cons_of_neg (by simp [hkeep])
  have hword : exportWord.isPrefixOf (exportWord ++ printBody p) = true := by simp
  rw [trim, trimBy_of_bare hbare, printLine_eq, dropExport, if_pos hword, List.drop_left,
    hbody]

/-- Double marks keep a value from every loss: blanks and single marks inside them are no ends. -/
theorem unquote_marked {value : List Char} (h : IsValue value) :
    unquote ('\x22' :: value ++ ['\x22']) = value := by
  have hbare : ∀ p : Char → Bool, p '\x22' = false → Bare p ('\x22' :: value ++ ['\x22']) := by
    intro p hp
    refine ⟨fun c hc => ?_, fun c hc => ?_⟩
    · rw [← Option.some.inj hc]
      exact hp
    · rw [List.getLast?_concat] at hc
      rw [← Option.some.inj hc]
      exact hp
  rw [unquote, trim, trimBy_of_bare (hbare isBlank (by decide)),
    trimBy_of_bare (hbare _ (by decide)), trimBy_marked h.bare (by decide)]

theorem pair?_printLine {p : String × String} (hkey : IsKey p.1.toList)
    (hvalue : IsValue p.2.toList) : pair? (printLine p) = some p := by
  have hdeclared := declaration?_of_body hkey (dropExport_printLine hkey)
  rw [pair?, hdeclared, unquote_marked hvalue, Option.map_some, String.ofList_toList,
    String.ofList_toList]

theorem not_isLineBreak_printLine {p : String × String} (hkey : IsKey p.1.toList)
    (hvalue : IsValue p.2.toList) : ∀ c ∈ printLine p, isLineBreak c = false := by
  have hword : exportWord.all (!isLineBreak ·) = true := by decide
  intro c hc
  rw [printLine_eq, printBody] at hc
  simp only [List.mem_append, List.mem_cons, List.not_mem_nil, or_false] at hc
  rcases hc with hc | hc | rfl | (rfl | hc) | rfl
  · simpa using List.all_eq_true.mp hword c hc
  · exact hkey.no_break c hc
  · decide
  · decide
  · exact hvalue.no_break c hc
  · decide

/-- A printed map is read line by line; nothing follows the last line feed. -/
theorem lines_print {ps : Pairs} (hkey : ∀ p ∈ ps, IsKey p.1.toList)
    (hvalue : ∀ p ∈ ps, IsValue p.2.toList) : lines (print ps) = ps.map printLine ++ [[]] := by
  induction ps with
  | nil => rfl
  | cons p ps ih =>
    have hline := not_isLineBreak_printLine (hkey p List.mem_cons_self)
      (hvalue p List.mem_cons_self)
    have ih := ih (fun q hq => hkey q (List.mem_cons_of_mem p hq))
      fun q hq => hvalue q (List.mem_cons_of_mem p hq)
    have hprint : print (p :: ps) = printLine p ++ '\n' :: print ps := by
      simp [print]
    -- no line boundary stands in the line itself, so its line feed is the first cut
    rw [hprint, lines, pieces_eq_splitOnP,
      List.splitOnP_append_cons_of_forall_mem hline '\n' (by decide), ← pieces_eq_splitOnP, ← lines,
      ih]
    rfl

theorem filterMap_printLine {ps : Pairs} (hkey : ∀ p ∈ ps, IsKey p.1.toList)
    (hvalue : ∀ p ∈ ps, IsValue p.2.toList) : (ps.map printLine).filterMap pair? = ps := by
  rw [List.filterMap_map]
  refine (List.filterMap_congr fun p hp => ?_).trans List.filterMap_some
  exact pair?_printLine (hkey p hp) (hvalue p hp)

/-- A map that can be declared is what its printed form declares. -/
theorem parse_print {ps : Pairs} (h : Declarable ps) : parse (print ps) = ps := by
  have hpairs : declarations (print ps) = ps := by
    rw [declarations, lines_print h.key h.value, List.filterMap_append,
      filterMap_printLine h.key h.value]
    exact List.append_nil ps
  rw [parse_eq_putAll, hpairs, Pairs.putAll_of_nodup (by simpa using h.nodup), List.nil_append]

end Depict.Dotenv

namespace Depict.Source
open Dotenv

theorem load_content_encode (path : String) (text : List Char) :
    (content (Text.Utf8.encode text)).load path = .ok (parse text) := by
  rw [load, Text.Utf8.decode_encode]

/-- Only a text that can be declared is loaded from a file. -/
theorem declarable_of_load {path : String} {f : Source} {ps : Pairs} (h : f.load path = .ok ps) :
    Declarable ps := by
  cases f with
  | absent =>
    rw [← Except.ok.inj h]
    exact Declarable.nil
  | directory => cases h
  | content bytes =>
    rw [load] at h
    split at h
    · next text _ =>
      rw [← Except.ok.inj h]
      exact declarable_parse text
    · cases h

/-- The maps that files declare are exactly those that can be declared, and each of them is loaded
from its printed form; so loading, printing and loading again gives what was loaded. -/
theorem load_range_and_print (path : String) :
    (∀ ps, (∃ f : Source, f.load path = .ok ps) ↔ Declarable ps) ∧
      (∀ ps, Declarable ps → (content (Text.Utf8.encode (print ps))).load path = .ok ps) ∧
      ∀ (f : Source) (ps : Pairs), f.load path = .ok ps →
        (content (Text.Utf8.encode (print ps))).load path = .ok ps := by
  have hprint : ∀ ps, Declarable ps →
      (content (Text.Utf8.encode (print ps))).load path = .ok ps := by
    intro ps h
    rw [load_content_encode, parse_print h]
  refine ⟨fun ps => ⟨?_, fun h => ⟨_, hprint ps h⟩⟩, hprint, fun f ps h => ?_⟩
  · rintro ⟨f, h⟩
    exact declarable_of_load h
  · exact hprint ps (declarable_of_load h)

/-- A key that starts with the word export, and values of blanks and single marks only. -/
theorem load_print_export_key :
    Declarable [("export a", " '"), ("b c", "")] ∧
      (content (Text.Utf8.encode (print [("export a", " '"), ("b c", "")]))).load ".env" =
        .ok [("export a", " '"), ("b c", "")] := by
  have h : Declarable [("export a", " '"), ("b c", "")] := by decide
  exact ⟨h, (load_range_and_print ".env").2.1 _ h⟩

end Depict.Source

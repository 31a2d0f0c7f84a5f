import Depict.Proofs.Settings.Printing
import Depict.Proofs.Text.Lines

/-!
# Layout of declarations

What a text declares depends on its lines alone, not on how they are set: lines may end in any way,
may have blanks around them and may have lines between them that declare nothing. A text behind
another one updates what that one declares.
-/
namespace Depict.Dotenv
open Text

/-- A line that declares nothing: it is blank, a comment, or without an equals sign. A comment may
stand behind the word export. -/
inductive Idle : List Char → Prop
  | blank {line : List Char} (h : ∀ c ∈ line, isBlank c = true) : Idle line
  | comment {before : List Char} (hb : ∀ c ∈ before, isBlank c = true) (rest : List Char) :
      Idle (before ++ '#' :: rest)
  | exportedComment {before between : List Char} (hb : ∀ c ∈ before, isBlank c = true)
      (hw : ∀ c ∈ between, isBlank c = true) (rest : List Char) :
      Idle (before ++ exportWord ++ between ++ '#' :: rest)
  | unassigned {line : List Char} (h : '=' ∉ line) : Idle line

/-- The rows are the lines in their order, each with blanks around it, and idle rows anywhere between
them. -/
inductive Spaced : List (List Char) → List (List Char) → Prop
  | nil : Spaced [] []
  | line {before line after : List Char} {ls rows : List (List Char)}
      (hb : ∀ c ∈ before, isBlank c = true) (ha : ∀ c ∈ after, isBlank c = true)
      (h : Spaced ls rows) : Spaced (line :: ls) ((before ++ line ++ after) :: rows)
  | idle {row : List Char} {ls rows : List (List Char)} (hrow : Idle row) (h : Spaced ls rows) :
      Spaced ls (row :: rows)

/-- Rows as a text, each with its line end; `closed` tells whether the last one has it too. -/
def setOut (closed : Bool) : List (List Char × LineEnd) → List Char
  | [] => []
  | [row] => row.1 ++ if closed then row.2.chars else []
  | row :: next :: rows => row.1 ++ row.2.chars ++ setOut closed (next :: rows)

theorem pair?_of_isSkipped {line : List Char} (h : isSkipped (dropExport (trim line)) = true) :
    pair? line = none := by
  rw [pair?, declaration?, if_pos h]
  rfl

theorem isSkipped_of_not_mem {line : List Char} (h : '=' ∉ line) : isSkipped line = true := by
  simp [isSkipped, h]

theorem pair?_of_not_mem {line : List Char} (h : '=' ∉ line) : pair? line = none := by
  apply pair?_of_isSkipped
  apply isSkipped_of_not_mem
  intro hmem
  exact h (mem_of_mem_trimBy (mem_of_mem_dropExport hmem))

/-- The text of a comment does not matter. -/
theorem isSkipped_comment (rest : List Char) : isSkipped ('#' :: rest) = true := by
  simp [isSkipped]

theorem pair?_of_idle {row : List Char} (h : Idle row) : pair? row = none := by
  cases h with
  | blank h =>
    apply pair?_of_not_mem
    intro hmem
    exact absurd (h _ hmem) (by decide)
  | comment hb rest =>
    apply pair?_of_isSkipped
    rw [trim, trimBy_append_cons hb (by decide)]
    exact isSkipped_comment _
  | @exportedComment before between hb hw rest =>
    have htrim : trim (before ++ exportWord ++ between ++ '#' :: rest) =
        exportWord ++ (between ++ '#' :: dropEnd isBlank rest) := by
      have hword : before ++ exportWord ++ between ++ '#' :: rest =
          before ++ 'e' :: (exportWord.tail ++ between ++ '#' :: rest) := by simp [exportWord]
      rw [hword, trim, trimBy_append_cons hb (by decide), dropEnd_append_cons (by decide)]
      simp [exportWord]
    have hprefix : exportWord.isPrefixOf (exportWord ++ (between ++ '#' :: dropEnd isBlank rest)) =
        true := by simp
    apply pair?_of_isSkipped
    rw [htrim, dropExport, if_pos hprefix, List.drop_left, List.dropWhile_append_of_pos hw]
    exact isSkipped_comment _
  | unassigned h => exact pair?_of_not_mem h

/-- Blanks around a line do not matter. -/
theorem pair?_padded {before after : List Char} (hb : ∀ c ∈ before, isBlank c = true)
    (ha : ∀ c ∈ after, isBlank c = true) (line : List Char) :
    pair? (before ++ line ++ after) = pair? line := by
  have htrim : trim (before ++ line ++ after) = trim line := trimBy_append hb ha line
  rw [pair?, pair?, declaration?, declaration?, htrim]

theorem Spaced.filterMap_pair? {ls rows : List (List Char)} (h : Spaced ls rows) :
    rows.filterMap pair? = ls.filterMap pair? := by
  induction h with
  | nil => rfl
  | line hb ha h ih => rw [List.filterMap_cons, List.filterMap_cons, pair?_padded hb ha, ih]
  | idle hrow h ih => rw [List.filterMap_cons, pair?_of_idle hrow, ih]

theorem filterMap_pair?_filled (ls : List (List Char)) :
    (filled ls).filterMap pair? = ls.filterMap pair? := by
  induction ls with
  | nil => rfl
  | cons l ls ih =>
    cases l with
    | nil => exact ih
    | cons c l =>
      have hfilled : filled ((c :: l) :: ls) = (c :: l) :: filled ls := rfl
      rw [hfilled, List.filterMap_cons, List.filterMap_cons, ih]

/-- Reading a text in two passes finds the same declarations. -/
theorem declarations_eq_endedLines (text : List Char) :
    declarations text = (endedLines (unified text)).filterMap pair? := by
  rw [declarations, ← filterMap_pair?_filled, ← filled_endedLines_unified, filterMap_pair?_filled]

/-- A line end parts the declarations before it from those behind it. -/
theorem declarations_append (s : List Char) (e : LineEnd) (t : List Char) :
    declarations (s ++ e.chars ++ t) = declarations s ++ declarations t := by
  have hone : ∀ c, isLineBreak c = true → ∀ s t : List Char,
      declarations (s ++ c :: t) = declarations s ++ declarations t := by
    intro c hc s t
    simp only [declarations, lines, pieces_eq_splitOnP, List.splitOnP_append_cons s t hc,
      List.filterMap_append]
  rw [List.append_assoc]
  cases e with
  | carriageReturnLineFeed =>
    -- the empty line between the two characters declares nothing
    have hinner := hone '\n' (by decide) [] t
    exact (hone '\r' (by decide) s ('\n' :: t)).trans (congrArg _ hinner)
  | lineFeed | carriageReturn | verticalTab | formFeed | fileSeparator | groupSeparator
    | recordSeparator | nextLine | lineSeparator | paragraphSeparator =>
    exact hone _ (by decide) s t

theorem declarations_setOut (closed : Bool) (rows : List (List Char × LineEnd))
    (h : ∀ row ∈ rows, ∀ c ∈ row.1, isLineBreak c = false) :
    declarations (setOut closed rows) = (rows.map Prod.fst).filterMap pair? := by
  fun_induction setOut closed rows with
  | case1 => rfl
  | case2 row =>
    have hrow := declarations_of_forall (h row List.mem_cons_self)
    cases closed with
    | false => simpa using hrow
    | true =>
      have happend := declarations_append row.1 row.2 []
      rw [List.append_nil] at happend
      exact happend.trans ((List.append_nil _).trans hrow)
  | case3 row next rows ih =>
    have hrow := declarations_of_forall (h row List.mem_cons_self)
    rw [declarations_append, hrow, ih fun r hr => h r (List.mem_cons_of_mem row hr),
      List.map_cons, List.map_cons, ← List.filterMap_append]
    rfl

end Depict.Dotenv

namespace Depict.Source
open Dotenv Text

/-- What is loaded from a text is what its lines declare, one after another, however they are found.
A text behind a line end updates what is loaded before it: its values count, and keys that are there
already keep their places. Lines that are set out in rows are loaded as their declarations, whatever
line ends the rows have, with blanks around the lines and idle rows between them. -/
theorem load_setOut (path : String) :
    (∀ text, (content (Utf8.encode text)).load path =
      .ok (Pairs.putAll [] ((endedLines (unified text)).filterMap pair?))) ∧
    (∀ (s : List Char) (e : LineEnd) (t : List Char), ∃ ps qs,
      (content (Utf8.encode s)).load path = .ok ps ∧
      (content (Utf8.encode t)).load path = .ok qs ∧
      (content (Utf8.encode (s ++ e.chars ++ t))).load path = .ok (ps.putAll qs) ∧
      (ps.putAll qs).keys = ps.keys ++ qs.keys.filter (· ∉ ps.keys) ∧
      ∀ key, (ps.putAll qs).get? key = (qs.get? key).or (ps.get? key)) ∧
    ∀ (ls : List (List Char)) (rows : List (List Char × LineEnd)) (closed : Bool),
      (∀ row ∈ rows, ∀ c ∈ row.1, isLineBreak c = false) → Spaced ls (rows.map Prod.fst) →
      (content (Utf8.encode (setOut closed rows))).load path =
        .ok (Pairs.putAll [] (ls.filterMap pair?)) := by
  have hload : ∀ text, (content (Utf8.encode text)).load path =
      .ok (Pairs.putAll [] (declarations text)) := by
    intro text
    rw [load_content_encode, parse_eq_putAll]
  refine ⟨fun text => ?_, fun s e t => ?_, fun ls rows closed hrows hspaced => ?_⟩
  · rw [hload, declarations_eq_endedLines]
  · have hnil : (Pairs.keys []).Nodup := List.nodup_nil
    have hnodup := Pairs.nodup_keys_putAll hnil (declarations t)
    refine ⟨_, _, hload s, hload t, ?_, Pairs.keys_putAll hnodup, fun key => ?_⟩
    · rw [hload, declarations_append, Pairs.putAll_append, Pairs.putAll_putAll_nil]
    · rw [Pairs.get?_putAll, Pairs.last?_of_nodup hnodup]
  · rw [hload, declarations_setOut closed rows hrows, hspaced.filterMap_pair?]

/-- Three lines with blanks around them, a comment and an empty row, under five kinds of line
ends. -/
def scattered : List (List Char × LineEnd) :=
  [("\t export A=1 ".toList, .carriageReturn), ([], .lineFeed), ("B= 2".toList, .verticalTab),
    (" # A=0".toList, .carriageReturnLineFeed), ("A=3\u00a0".toList, .paragraphSeparator)]

theorem load_setOut_scattered :
    let ls := ["export A=1".toList, "B= 2".toList, "A=3".toList]
    (∀ row ∈ scattered, ∀ c ∈ row.1, isLineBreak c = false) ∧
      Spaced ls (scattered.map Prod.fst) ∧
      (content (Utf8.encode (setOut false scattered))).load ".env" = .ok [("A", "3"), ("B", "2")] := by
  intro ls
  have hrows : ∀ row ∈ scattered, ∀ c ∈ row.1, isLineBreak c = false := by
    have hall : scattered.all (fun row => row.1.all (!isLineBreak ·)) = true := by decide
    simpa using hall
  have hblank : ∀ s : List Char, s.all isBlank = true → ∀ c ∈ s, isBlank c = true :=
    fun s => List.all_eq_true.mp
  have hspaced : Spaced ls (scattered.map Prod.fst) := by
    refine .line (hblank "\t ".toList (by decide)) (hblank " ".toList (by decide)) ?_
    refine .idle (.unassigned List.not_mem_nil) ?_
    refine .line (hblank [] rfl) (hblank [] rfl) ?_
    refine .idle (.comment (hblank [' '] (by decide)) " A=0".toList) ?_
    exact .line (hblank [] rfl) (hblank ['\u00a0'] (by decide)) .nil
  have hload := (load_setOut ".env").2.2 ls scattered false hrows hspaced
  have hpairs : Pairs.putAll [] (ls.filterMap pair?) = [("A", "3"), ("B", "2")] := by decide
  exact ⟨hrows, hspaced, hload.trans (congrArg Except.ok hpairs)⟩

end Depict.Source

import Depict.Proofs.Text.Trim
import Depict.Text.Lines

/-!
# Lines in two passes

A text can also be read in two passes: every carriage return becomes a line feed, together with a
line feed behind it if there is one, and the lines are then taken one by one, with nothing behind
the last line end. The two ways differ in empty lines alone.
-/
namespace Depict.Text

/-- What ends a line. -/
inductive LineEnd
  | lineFeed
  | carriageReturnLineFeed
  | carriageReturn
  | verticalTab
  | formFeed
  | fileSeparator
  | groupSeparator
  | recordSeparator
  | nextLine
  | lineSeparator
  | paragraphSeparator

def LineEnd.chars : LineEnd → List Char
  | lineFeed => ['\n']
  | carriageReturnLineFeed => ['\r', '\n']
  | carriageReturn => ['\r']
  | verticalTab => ['\x0b']
  | formFeed => ['\x0c']
  | fileSeparator => ['\x1c']
  | groupSeparator => ['\x1d']
  | recordSeparator => ['\x1e']
  | nextLine => ['\u0085']
  | lineSeparator => ['\u2028']
  | paragraphSeparator => ['\u2029']

/-- The text with a line feed in place of every carriage return, which takes a line feed behind it
with it. -/
def unified : List Char → List Char
  | [] => []
  | '\r' :: '\n' :: cs => '\n' :: unified cs
  | '\r' :: cs => '\n' :: unified cs
  | c :: cs => c :: unified cs

/-- The lines of a text, each up to its line end; the last one needs none. -/
def endedLines : List Char → List (List Char)
  | [] => []
  | '\r' :: '\n' :: cs => [] :: endedLines cs
  | c :: cs =>
    if isLineBreak c then [] :: endedLines cs
    else (c :: (endedLines cs).headD []) :: (endedLines cs).tail

/-- The lines that hold something. -/
def filled (ls : List (List Char)) : List (List Char) :=
  ls.filter (!·.isEmpty)

variable {c : Char}

theorem endedLines_cons (hr : c ≠ '\r') (cs : List Char) :
    endedLines (c :: cs) = if isLineBreak c then [] :: endedLines cs
      else (c :: (endedLines cs).headD []) :: (endedLines cs).tail := by
  rw [endedLines]
  rintro _ rfl
  contradiction

theorem lines_cons (c : Char) (cs : List Char) :
    lines (c :: cs) = if isLineBreak c then [] :: lines cs
      else (c :: (lines cs).headD []) :: (lines cs).tail := by
  obtain ⟨l, ls, hl⟩ := List.exists_cons_of_ne_nil (pieces_ne_nil isLineBreak cs)
  simp only [lines, pieces, hl, List.headD_cons, List.tail_cons]

/-- The first line is one that holds something or makes no difference. -/
theorem filled_eq (ls : List (List Char)) :
    filled ls = filled [ls.headD []] ++ filled ls.tail := by
  cases ls with
  | nil => rfl
  | cons l ls => exact List.filter_append [l] ls

theorem endedLines_unified (s : List Char) :
    (endedLines (unified s)).headD [] = (lines s).headD [] ∧
      filled (endedLines (unified s)).tail = filled (lines s).tail := by
  fun_induction unified s with
  | case1 => exact ⟨rfl, rfl⟩
  | case2 cs ih =>
    have hfilled := filled_eq (endedLines (unified cs))
    rw [ih.1, ih.2, ← filled_eq] at hfilled
    rw [endedLines_cons (by decide), lines_cons, lines_cons]
    exact ⟨rfl, hfilled⟩
  | case3 cs _ ih =>
    have hfilled := filled_eq (endedLines (unified cs))
    rw [ih.1, ih.2, ← filled_eq] at hfilled
    rw [endedLines_cons (by decide), lines_cons]
    exact ⟨rfl, hfilled⟩
  | case4 c cs _ hr ih =>
    have hfilled := filled_eq (endedLines (unified cs))
    rw [ih.1, ih.2, ← filled_eq] at hfilled
    rw [endedLines_cons hr, lines_cons]
    cases hc : isLineBreak c with
    | true => exact ⟨rfl, hfilled⟩
    | false => exact ⟨congrArg (c :: ·) ih.1, ih.2⟩

/-- In two passes a text has the same lines that hold something. -/
theorem filled_endedLines_unified (s : List Char) :
    filled (endedLines (unified s)) = filled (lines s) := by
  obtain ⟨hhead, htail⟩ := endedLines_unified s
  rw [filled_eq, hhead, htail, ← filled_eq]

end Depict.Text

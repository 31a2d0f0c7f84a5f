import Depict.Text.Pieces

/-!
# Lines of a text

A line ends at any line boundary: the line feeds and carriage returns, the
vertical tab, the form feed, the file, group and record separators, the next-line
control and the two Unicode separators. The two characters of a carriage return
with a line feed bound an empty line between them, which holds nothing.
-/
namespace Depict.Text

/-- Whether a line ends here. -/
def isLineBreak (c : Char) : Bool :=
  let n := c.toNat
  (10 ≤ n && n ≤ 13) || (28 ≤ n && n ≤ 30) || n == 0x85 || n == 0x2028 || n == 0x2029

/-- The runs between line boundaries, in order. -/
def lines (s : List Char) : List (List Char) :=
  pieces isLineBreak s

end Depict.Text

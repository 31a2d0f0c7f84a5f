/-!
# Blank characters and trimming

A blank is a white-space character of the Unicode standard or one of the four
information separators. Trimming takes every character of a class off the two
ends of a text and leaves its inside alone.
-/
namespace Depict.Text

/-- White space, and the information separators U+001C to U+001F. -/
def isBlank (c : Char) : Bool :=
  let n := c.toNat
  (9 ≤ n && n ≤ 13) || (28 ≤ n && n ≤ 32) || n == 0x85 || n == 0xA0 || n == 0x1680 ||
    (0x2000 ≤ n && n ≤ 0x200A) || n == 0x2028 || n == 0x2029 || n == 0x202F || n == 0x205F ||
    n == 0x3000

/-- The characters up to the last one outside the class. -/
def dropEnd (p : Char → Bool) (s : List Char) : List Char :=
  (s.reverse.dropWhile p).reverse

/-- The characters between the first and the last one outside the class. -/
def trimBy (p : Char → Bool) (s : List Char) : List Char :=
  dropEnd p (s.dropWhile p)

/-- The text without the blanks at its ends. -/
def trim (s : List Char) : List Char :=
  trimBy isBlank s

/-- The characters after the last occurrence of `c`, or all of them if there is none. -/
def afterLast (c : Char) (s : List Char) : List Char :=
  (s.reverse.takeWhile (· != c)).reverse

theorem isBlank_of_isWhitespace (c : Char) (h : c.isWhitespace = true) : isBlank c = true := by
  simp only [Char.isWhitespace, Bool.or_eq_true, decide_eq_true_eq] at h
  rcases h with ((rfl | rfl) | rfl) | rfl <;> decide

@[simp] theorem trimBy_nil (p : Char → Bool) : trimBy p [] = [] := rfl

@[simp] theorem trim_nil : trim [] = [] := rfl

end Depict.Text

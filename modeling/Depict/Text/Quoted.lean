import Depict.Text.Printable

/-!
# Quoted texts

A text is quoted between single marks, or between double marks if it holds a
single mark and no double one. The mark in use, the backslash and everything
unprintable are escaped; bytes are quoted by the same rule with ASCII alone
shown as itself.
-/
namespace Depict.Text

/-- The low `width` hexadecimal digits of a number, in lower case. -/
def hexDigits : Nat → Nat → List Char
  | 0, _ => []
  | width + 1, n => hexDigits width (n / 16) ++ [Nat.digitChar (n % 16)]

/-- The mark around a text: single, unless the text holds single marks and no double ones. -/
def quoteMark (s : List Char) : Char :=
  if s.contains '\x27' && !s.contains '\x22' then '\x22' else '\x27'

/-- A character inside a quoted text. -/
def escapeChar (mark c : Char) : List Char :=
  if c = mark || c = '\\' then ['\\', c]
  else if c = '\n' then ['\\', 'n']
  else if c = '\r' then ['\\', 'r']
  else if c = '\t' then ['\\', 't']
  else if isPrintable c then [c]
  else if c.toNat < 0x100 then '\\' :: 'x' :: hexDigits 2 c.toNat
  else if c.toNat < 0x10000 then '\\' :: 'u' :: hexDigits 4 c.toNat
  else '\\' :: 'U' :: hexDigits 8 c.toNat

def quoteChars (s : List Char) : List Char :=
  let mark := quoteMark s
  mark :: s.flatMap (escapeChar mark) ++ [mark]

def quote (s : String) : String :=
  String.ofList (quoteChars s.toList)

def escapeByte (mark : Char) (b : UInt8) : List Char :=
  if b < 0x7F then escapeChar mark (Char.ofNat b.toNat)
  else '\\' :: 'x' :: hexDigits 2 b.toNat

/-- Bytes between quotation marks, after the letter that marks them as bytes. -/
def quoteBytes (bytes : List UInt8) : String :=
  let mark := quoteMark (bytes.map fun b => Char.ofNat b.toNat)
  String.ofList ('b' :: mark :: bytes.flatMap (escapeByte mark) ++ [mark])

theorem length_hexDigits (width n : Nat) : (hexDigits width n).length = width := by
  induction width generalizing n with
  | zero => rfl
  | succ w ih => simp [hexDigits, ih]

end Depict.Text

/-!
# Digits

A decimal digit has a value and counts in positional notation; every script's
ten decimal digits lie side by side, from zero to nine. The other digits of
Unicode 14, such as superscripts and circled digits, look like digits and have
no place in positional notation.
-/
namespace Depict.Text

/-- The zero of every decimal system. -/
def decimalZeros : List Nat :=
  [0x30, 0x660, 0x6F0, 0x7C0, 0x966, 0x9E6, 0xA66, 0xAE6, 0xB66, 0xBE6, 0xC66, 0xCE6, 0xD66,
   0xDE6, 0xE50, 0xED0, 0xF20, 0x1040, 0x1090, 0x17E0, 0x1810, 0x1946, 0x19D0, 0x1A80, 0x1A90,
   0x1B50, 0x1BB0, 0x1C40, 0x1C50, 0xA620, 0xA8D0, 0xA900, 0xA9D0, 0xA9F0, 0xAA50, 0xABF0, 0xFF10,
   0x104A0, 0x10D30, 0x11066, 0x110F0, 0x11136, 0x111D0, 0x112F0, 0x11450, 0x114D0, 0x11650,
   0x116C0, 0x11730, 0x118E0, 0x11950, 0x11C50, 0x11D50, 0x11DA0, 0x16A60, 0x16AC0, 0x16B50,
   0x1D7CE, 0x1D7D8, 0x1D7E2, 0x1D7EC, 0x1D7F6, 0x1E140, 0x1E2F0, 0x1E950, 0x1FBF0]

/-- Ranges of digits that are not decimal digits, both ends included. -/
def ornamentalDigits : List (Nat × Nat) :=
  [(178, 179), (185, 185), (4969, 4977), (6618, 6618), (8304, 8304), (8308, 8313), (8320, 8329),
   (9312, 9320), (9332, 9340), (9352, 9360), (9450, 9450), (9461, 9469), (9471, 9471),
   (10102, 10110), (10112, 10120), (10122, 10130), (68160, 68163), (69216, 69224), (69714, 69722),
   (127232, 127242)]

/-- The value of a decimal digit of any script. -/
def decimalValue? (c : Char) : Option Nat :=
  let n := c.toNat
  (decimalZeros.find? fun z => z ≤ n && n < z + 10).map (n - ·)

/-- Whether the character is a digit of either kind. -/
def isDigit (c : Char) : Bool :=
  (decimalValue? c).isSome || ornamentalDigits.any fun r => r.1 ≤ c.toNat && c.toNat ≤ r.2

/-- The number that decimal digits spell; a character that is none counts as zero. -/
def decimalNumber (s : List Char) : Nat :=
  s.foldl (fun n c => 10 * n + (decimalValue? c).getD 0) 0

theorem decimalValue?_lt {c : Char} {d : Nat} (h : decimalValue? c = some d) : d < 10 := by
  simp only [decimalValue?, Option.map_eq_some_iff] at h
  obtain ⟨z, hz, rfl⟩ := h
  have := List.find?_some hz
  simp only [Bool.and_eq_true, decide_eq_true_eq] at this
  omega

theorem isDigit_of_decimalValue? {c : Char} {d : Nat} (h : decimalValue? c = some d) :
    isDigit c = true := by
  simp [isDigit, h]

end Depict.Text

/-!
# UTF-8

Characters as bytes and back. The reader takes one byte at a time and refuses
the first one that no character can continue with, so a refusal names the bytes
of the character it broke off.
-/
namespace Depict.Text.Utf8

/-- The bytes of a character: one to four, by its code point. -/
def encodeChar (c : Char) : List UInt8 :=
  let n := c.toNat
  if n < 0x80 then [.ofNat n]
  else if n < 0x800 then [.ofNat (0xC0 + n / 64), .ofNat (0x80 + n % 64)]
  else if n < 0x10000 then
    [.ofNat (0xE0 + n / 4096), .ofNat (0x80 + n / 64 % 64), .ofNat (0x80 + n % 64)]
  else
    [.ofNat (0xF0 + n / 262144), .ofNat (0x80 + n / 4096 % 64), .ofNat (0x80 + n / 64 % 64),
      .ofNat (0x80 + n % 64)]

/-- The bytes of a text. -/
def encode (s : List Char) : List UInt8 :=
  s.flatMap encodeChar

/-- Why bytes are no text. -/
inductive Flaw
  | badStart
  | badContinuation
  | cutShort
  deriving DecidableEq

/-- Bytes that are no text: where the broken character starts, and its bytes up to the break. -/
structure Malformed where
  start : Nat
  bytes : List UInt8
  flaw : Flaw
  deriving DecidableEq

/-- A character under way: the bits and bytes so far, the continuation bytes still owed, and the
range of the next one. -/
structure Pending where
  bits : Nat
  bytes : List UInt8
  owed : Nat
  low : Nat
  high : Nat

/-- What the first byte of a longer character promises; `none` if no longer character starts so. -/
def lead? (b : UInt8) : Option Pending :=
  let n := b.toNat
  if n < 0xC2 then none
  else if n < 0xE0 then some ⟨n - 0xC0, [b], 1, 0x80, 0xBF⟩
  else if n < 0xF0 then
    some ⟨n - 0xE0, [b], 2, if n = 0xE0 then 0xA0 else 0x80, if n = 0xED then 0x9F else 0xBF⟩
  else if n < 0xF5 then
    some ⟨n - 0xF0, [b], 3, if n = 0xF0 then 0x90 else 0x80, if n = 0xF4 then 0x8F else 0xBF⟩
  else none

/-- The character under way with one more continuation byte. -/
def Pending.push (p : Pending) (b : UInt8) : Pending :=
  ⟨p.bits * 64 + (b.toNat - 0x80), p.bytes ++ [b], p.owed - 1, 0x80, 0xBF⟩

/-- Reads the bytes from position `pos` on, in or between characters. -/
def decodeFrom : Nat → Option Pending → List UInt8 → Except Malformed (List Char)
  | _, none, [] => .ok []
  | pos, some p, [] => .error ⟨pos - p.bytes.length, p.bytes, .cutShort⟩
  | pos, none, b :: bs =>
    if b < 0x80 then (decodeFrom (pos + 1) none bs).map (Char.ofNat b.toNat :: ·)
    else match lead? b with
      | none => .error ⟨pos, [b], .badStart⟩
      | some p => decodeFrom (pos + 1) (some p) bs
  | pos, some p, b :: bs =>
    if p.low ≤ b.toNat && b.toNat ≤ p.high then
      let q := p.push b
      if q.owed = 0 then (decodeFrom (pos + 1) none bs).map (Char.ofNat q.bits :: ·)
      else decodeFrom (pos + 1) (some q) bs
    else .error ⟨pos - p.bytes.length, p.bytes, .badContinuation⟩

/-- The text that the bytes spell, or the first place where they spell none. -/
def decode (bytes : List UInt8) : Except Malformed (List Char) :=
  decodeFrom 0 none bytes

theorem encode_append (s t : List Char) : encode (s ++ t) = encode s ++ encode t := by
  simp [encode]

end Depict.Text.Utf8

import Depict.Proofs.Outcome
import Depict.Text.Utf8
import Mathlib

/-!
# Reading UTF-8 back

A character is written as a first byte, which promises how many bytes follow, and
continuation bytes of six bits each. The reader collects these bits, so it arrives
at the character that was written, and every text is read back. What it takes between
a first byte and the last one owed are the bytes of a character, so it reads no others.
-/
namespace Depict.Text.Utf8

/-- The byte that holds the six bits of a number above its last `m` groups of six. -/
def continuationByte (m n : Nat) : UInt8 :=
  .ofNat (0x80 + n / 64 ^ m % 64)

/-- The continuation bytes that hold the last `m` groups of six bits of a number. -/
def continuation : Nat → Nat → List UInt8
  | 0, _ => []
  | m + 1, n => continuationByte m n :: continuation m n

theorem toNat_continuationByte (m n : Nat) :
    (continuationByte m n).toNat = 0x80 + n / 64 ^ m % 64 := by
  have h : n / 64 ^ m % 64 < 64 := Nat.mod_lt _ (by decide)
  exact UInt8.toNat_ofNat_of_lt' (show 0x80 + n / 64 ^ m % 64 < 256 by omega)

/-- A byte below 0x80 is read as the character with that code point. -/
theorem decodeFrom_single (pos n : Nat) (bytes : List UInt8) (h : n < 0x80) :
    decodeFrom pos none (.ofNat n :: bytes) =
      (decodeFrom (pos + 1) none bytes).map (Char.ofNat n :: ·) := by
  have hn : (UInt8.ofNat n).toNat = n := UInt8.toNat_ofNat_of_lt' (show n < 256 by omega)
  have hb : UInt8.ofNat n < 0x80 := by
    rw [UInt8.lt_iff_toNat_lt, hn]
    exact h
  simp only [decodeFrom, if_pos hb, hn]

/-- A first byte that promises more leaves the reader in the character. -/
theorem decodeFrom_lead (pos : Nat) {b : UInt8} {p : Pending} (bytes : List UInt8)
    (hp : lead? b = some p) :
    decodeFrom pos none (b :: bytes) = decodeFrom (pos + 1) (some p) bytes := by
  have h : ¬ b < 0x80 := by
    intro hb
    have hlow : b.toNat < 0xC2 := Nat.lt_trans (UInt8.lt_iff_toNat_lt.mp hb) (by decide)
    rw [lead?, if_pos hlow] at hp
    cases hp
  simp only [decodeFrom, if_neg h, hp]

@[simp] theorem bits_push (p : Pending) (b : UInt8) :
    (p.push b).bits = p.bits * 64 + (b.toNat - 0x80) := rfl

@[simp] theorem owed_push (p : Pending) (b : UInt8) : (p.push b).owed = p.owed - 1 := rfl

@[simp] theorem low_push (p : Pending) (b : UInt8) : (p.push b).low = 0x80 := rfl

@[simp] theorem high_push (p : Pending) (b : UInt8) : (p.push b).high = 0xBF := rfl

theorem bits_push_continuationByte {p : Pending} {m n : Nat} (h : p.bits = n / 64 ^ (m + 1)) :
    (p.push (continuationByte m n)).bits = n / 64 ^ m := by
  have hd : n / 64 ^ (m + 1) = n / 64 ^ m / 64 := by rw [Nat.pow_succ, Nat.div_div_eq_div_mul]
  rw [bits_push, toNat_continuationByte, h, hd]
  omega

/-- The reader in a character that owes `m + 1` bytes takes them for the bits of `n`. The first of
them must be in the range that the first byte left open. -/
theorem decodeFrom_continuation (m n : Nat) (bytes : List UInt8) :
    ∀ (pos : Nat) (p : Pending), p.owed = m + 1 → p.bits = n / 64 ^ (m + 1) →
      p.low ≤ 0x80 + n / 64 ^ m % 64 → 0x80 + n / 64 ^ m % 64 ≤ p.high →
      decodeFrom pos (some p) (continuation (m + 1) n ++ bytes) =
        (decodeFrom (pos + (m + 1)) none bytes).map (Char.ofNat n :: ·) := by
  induction m with
  | zero =>
    intro pos p howed hbits hlow hhigh
    have hn := bits_push_continuationByte hbits
    rw [Nat.pow_zero, Nat.div_one] at hn
    rw [← toNat_continuationByte] at hlow hhigh
    have howed' : (p.push (continuationByte 0 n)).owed = 0 := by rw [owed_push, howed]
    simp only [continuation, List.cons_append, List.nil_append, decodeFrom, hlow, hhigh,
      decide_true, Bool.and_self, if_true, howed', hn, Nat.zero_add]
  | succ m ih =>
    intro pos p howed hbits hlow hhigh
    have hn := bits_push_continuationByte hbits
    rw [← toNat_continuationByte] at hlow hhigh
    have howed' : (p.push (continuationByte (m + 1) n)).owed = m + 1 := by
      rw [owed_push, howed, Nat.add_sub_cancel]
    have hdigit : n / 64 ^ m % 64 < 64 := Nat.mod_lt _ (by decide)
    rw [continuation, List.cons_append, decodeFrom]
    simp only [hlow, hhigh, decide_true, Bool.and_self, if_true, howed', Nat.add_one_ne_zero,
      if_false]
    rw [ih (pos + 1) _ howed' hn (by rw [low_push]; omega) (by rw [high_push]; omega),
      show pos + 1 + (m + 1) = pos + (m + 1 + 1) by omega]

/-- A first byte whose character has the low bits `n`, and the bytes that it promises. -/
theorem decodeFrom_lead_continuation (pos m n : Nat) {b : UInt8} {p : Pending}
    (bytes : List UInt8) (hp : lead? b = some p) (howed : p.owed = m + 1)
    (hbits : p.bits = n / 64 ^ (m + 1)) (hlow : p.low ≤ 0x80 + n / 64 ^ m % 64)
    (hhigh : 0x80 + n / 64 ^ m % 64 ≤ p.high) :
    decodeFrom pos none (b :: continuation (m + 1) n ++ bytes) =
      (decodeFrom (pos + (m + 2)) none bytes).map (Char.ofNat n :: ·) := by
  rw [List.cons_append, decodeFrom_lead pos _ hp,
    decodeFrom_continuation m n bytes (pos + 1) p howed hbits hlow hhigh,
    show pos + 1 + (m + 1) = pos + (m + 2) by omega]

theorem lead?_two (n : Nat) (hlow : 0x80 ≤ n) (hhigh : n < 0x800) :
    lead? (.ofNat (0xC0 + n / 64)) =
      some ⟨n / 64, [.ofNat (0xC0 + n / 64)], 1, 0x80, 0xBF⟩ := by
  have hb : (UInt8.ofNat (0xC0 + n / 64)).toNat = 0xC0 + n / 64 :=
    UInt8.toNat_ofNat_of_lt' (show 0xC0 + n / 64 < 256 by omega)
  simp only [lead?, hb]
  rw [if_neg (by omega), if_pos (by omega), Nat.add_sub_cancel_left]

/-- The first byte of three leaves no room for a code point that needs fewer or is a surrogate. -/
theorem lead?_three (n : Nat) (hlow : 0x800 ≤ n) (hhigh : n < 0x10000)
    (hscalar : n < 0xD800 ∨ 0xDFFF < n) :
    ∃ low high, lead? (.ofNat (0xE0 + n / 4096)) =
        some ⟨n / 4096, [.ofNat (0xE0 + n / 4096)], 2, low, high⟩ ∧
      low ≤ 0x80 + n / 64 % 64 ∧ 0x80 + n / 64 % 64 ≤ high := by
  have hb : (UInt8.ofNat (0xE0 + n / 4096)).toNat = 0xE0 + n / 4096 :=
    UInt8.toNat_ofNat_of_lt' (show 0xE0 + n / 4096 < 256 by omega)
  simp only [lead?, hb]
  rw [if_neg (by omega), if_neg (by omega), if_pos (by omega), Nat.add_sub_cancel_left]
  refine ⟨_, _, rfl, ?_, ?_⟩
  · split <;> omega
  · split <;> omega

/-- The first byte of four leaves no room for a code point that needs fewer or is beyond the last
one. -/
theorem lead?_four (n : Nat) (hlow : 0x10000 ≤ n) (hhigh : n < 0x110000) :
    ∃ low high, lead? (.ofNat (0xF0 + n / 262144)) =
        some ⟨n / 262144, [.ofNat (0xF0 + n / 262144)], 3, low, high⟩ ∧
      low ≤ 0x80 + n / 4096 % 64 ∧ 0x80 + n / 4096 % 64 ≤ high := by
  have hb : (UInt8.ofNat (0xF0 + n / 262144)).toNat = 0xF0 + n / 262144 :=
    UInt8.toNat_ofNat_of_lt' (show 0xF0 + n / 262144 < 256 by omega)
  simp only [lead?, hb]
  rw [if_neg (by omega), if_neg (by omega), if_neg (by omega), if_pos (by omega),
    Nat.add_sub_cancel_left]
  refine ⟨_, _, rfl, ?_, ?_⟩
  · split <;> omega
  · split <;> omega

/-- Whatever follows it, a written character is read back. -/
theorem decodeFrom_encodeChar (pos : Nat) (c : Char) (bytes : List UInt8) :
    decodeFrom pos none (encodeChar c ++ bytes) =
      (decodeFrom (pos + (encodeChar c).length) none bytes).map (c :: ·) := by
  -- a code point is no surrogate and is not beyond the last one
  have hc : c.toNat < 0xD800 ∨ 0xDFFF < c.toNat ∧ c.toNat < 0x110000 := c.valid
  have hback := Char.ofNat_toNat c
  unfold encodeChar
  generalize c.toNat = n at hc hback ⊢
  subst hback
  dsimp only
  split
  · next h => exact decodeFrom_single pos n bytes h
  split
  · next h₁ h₂ =>
    have hlead := lead?_two n (by omega) h₂
    have hdigit : n % 64 < 64 := Nat.mod_lt _ (by decide)
    have h := decodeFrom_lead_continuation pos 0 n bytes hlead rfl rfl (by simp)
      (by simp only [Nat.pow_zero, Nat.div_one]; omega)
    simpa [continuation, continuationByte] using h
  split
  · next h₁ h₂ h₃ =>
    obtain ⟨low, high, hlead, hlow, hhigh⟩ := lead?_three n (by omega) h₃ (by omega)
    have h := decodeFrom_lead_continuation pos 1 n bytes hlead rfl rfl hlow hhigh
    simpa [continuation, continuationByte] using h
  · next h₁ h₂ h₃ =>
    obtain ⟨low, high, hlead, hlow, hhigh⟩ := lead?_four n (by omega) (by omega)
    have h := decodeFrom_lead_continuation pos 2 n bytes hlead rfl rfl hlow hhigh
    simpa [continuation, continuationByte] using h

theorem decodeFrom_encode (s : List Char) : ∀ pos, decodeFrom pos none (encode s) = .ok s := by
  induction s with
  | nil => intro pos; rfl
  | cons c s ih =>
    intro pos
    have h : encode (c :: s) = encodeChar c ++ encode s := rfl
    rw [h, decodeFrom_encodeChar, ih]
    rfl

/-- Every text is read back from its bytes. -/
theorem decode_encode (s : List Char) : decode (encode s) = .ok s :=
  decodeFrom_encode s 0

theorem encodeChar_one {n : Nat} (h : n < 0x80) : encodeChar (.ofNat n) = [.ofNat n] := by
  have hvalid : n.isValidChar := .inl (by omega)
  rw [encodeChar, Char.toNat_ofNat, if_pos hvalid]
  exact if_pos h

theorem encodeChar_two {n : Nat} (hlow : 0x80 ≤ n) (hhigh : n < 0x800) :
    encodeChar (.ofNat n) = .ofNat (0xC0 + n / 64) :: continuation 1 n := by
  have hvalid : n.isValidChar := .inl (by omega)
  rw [encodeChar, Char.toNat_ofNat, if_pos hvalid, if_neg (by omega), if_pos hhigh]
  simp [continuation, continuationByte]

theorem encodeChar_three {n : Nat} (hlow : 0x800 ≤ n) (hhigh : n < 0x10000)
    (hscalar : n < 0xD800 ∨ 0xDFFF < n) :
    encodeChar (.ofNat n) = .ofNat (0xE0 + n / 4096) :: continuation 2 n := by
  have hvalid : n < 0xD800 ∨ 0xDFFF < n ∧ n < 0x110000 := by omega
  rw [encodeChar, Char.toNat_ofNat, if_pos hvalid, if_neg (by omega), if_neg (by omega),
    if_pos hhigh]
  simp [continuation, continuationByte]

theorem encodeChar_four {n : Nat} (hlow : 0x10000 ≤ n) (hhigh : n < 0x110000) :
    encodeChar (.ofNat n) = .ofNat (0xF0 + n / 262144) :: continuation 3 n := by
  have hvalid : n.isValidChar := .inr ⟨by omega, hhigh⟩
  rw [encodeChar, Char.toNat_ofNat, if_pos hvalid, if_neg (by omega), if_neg (by omega),
    if_neg (by omega)]
  simp [continuation, continuationByte]

/-- A character under way that owes `m + 1` bytes: with those of any number that has its bits on top
and whose next group is in the range, its bytes are those of a character. -/
structure Pending.Begins (p : Pending) (m : Nat) : Prop where
  owed : p.owed = m + 1
  low : 0x80 ≤ p.low
  high : p.high ≤ 0xBF
  completed : ∀ n, n / 64 ^ (m + 1) = p.bits → p.low ≤ 0x80 + n / 64 ^ m % 64 →
    0x80 + n / 64 ^ m % 64 ≤ p.high →
      p.bytes ++ continuation (m + 1) n = encodeChar (.ofNat n)

theorem begins_of_lead? {b : UInt8} {p : Pending} (h : lead? b = some p) :
    p.bytes = [b] ∧ ∃ m, p.Begins m := by
  unfold lead? at h
  dsimp only at h
  split at h
  · cases h
  split at h
  · next hlow hhigh =>
    rw [← Option.some.inj h]
    refine ⟨rfl, 0, rfl, Nat.le_refl _, Nat.le_refl _, fun n hbits _ _ => ?_⟩
    dsimp only at hbits
    have hb : 0xC0 + n / 64 = b.toNat := by omega
    rw [encodeChar_two (by omega) (by omega), hb, UInt8.ofNat_toNat]
    rfl
  split at h
  · next hlow hhigh =>
    rw [← Option.some.inj h]
    refine ⟨rfl, 1, rfl, by dsimp only; split <;> omega, by dsimp only; split <;> omega,
      fun n hbits hfrom hto => ?_⟩
    dsimp only at hbits hfrom hto
    have hlow' : 0x800 ≤ n := by split at hfrom <;> omega
    have hscalar : n < 0xD800 ∨ 0xDFFF < n := by split at hto <;> omega
    have hb : 0xE0 + n / 4096 = b.toNat := by omega
    rw [encodeChar_three hlow' (by omega) hscalar, hb, UInt8.ofNat_toNat]
    rfl
  split at h
  · next hlow hhigh =>
    rw [← Option.some.inj h]
    refine ⟨rfl, 2, rfl, by dsimp only; split <;> omega, by dsimp only; split <;> omega,
      fun n hbits hfrom hto => ?_⟩
    dsimp only at hbits hfrom hto
    have hlow' : 0x10000 ≤ n := by split at hfrom <;> omega
    have hhigh' : n < 0x110000 := by split at hto <;> omega
    have hb : 0xF0 + n / 262144 = b.toNat := by omega
    rw [encodeChar_four hlow' hhigh', hb, UInt8.ofNat_toNat]
    rfl
  · cases h

@[simp] theorem bytes_push (p : Pending) (b : UInt8) : (p.push b).bytes = p.bytes ++ [b] := rfl

theorem continuationByte_of_toNat {m n : Nat} {b : UInt8} (h : 0x80 + n / 64 ^ m % 64 = b.toNat) :
    continuationByte m n = b := by
  rw [continuationByte, h, UInt8.ofNat_toNat]

/-- What a number has on top and in the next group, from the bits of a character under way with one
more byte. -/
theorem groups_of_push {p : Pending} {b : UInt8} {m n : Nat} (hlow : 0x80 ≤ b.toNat)
    (hhigh : b.toNat ≤ 0xBF) (h : n / 64 ^ m = (p.push b).bits) :
    n / 64 ^ (m + 1) = p.bits ∧ 0x80 + n / 64 ^ m % 64 = b.toNat := by
  rw [bits_push] at h
  rw [Nat.pow_succ, ← Nat.div_div_eq_div_mul, h]
  omega

theorem Pending.Begins.push {p : Pending} {b : UInt8} {m : Nat} (hp : p.Begins (m + 1))
    (hlow : p.low ≤ b.toNat) (hhigh : b.toNat ≤ p.high) : (p.push b).Begins m := by
  refine ⟨by rw [owed_push, hp.owed, Nat.add_sub_cancel], Nat.le_refl _, Nat.le_refl _,
    fun n hbits _ _ => ?_⟩
  obtain ⟨htop, hnext⟩ :=
    groups_of_push (Nat.le_trans hp.low hlow) (Nat.le_trans hhigh hp.high) hbits
  have h := hp.completed n htop (by omega) (by omega)
  have hcont : continuation (m + 1 + 1) n = b :: continuation (m + 1) n := by
    rw [continuation, continuationByte_of_toNat hnext]
  rw [← h, hcont, bytes_push, List.append_assoc, List.singleton_append]

/-- The last byte that a character under way owes. -/
theorem Pending.Begins.encodeChar_push {p : Pending} {b : UInt8} (hp : p.Begins 0)
    (hlow : p.low ≤ b.toNat) (hhigh : b.toNat ≤ p.high) :
    p.bytes ++ [b] = encodeChar (.ofNat (p.push b).bits) := by
  obtain ⟨htop, hnext⟩ := groups_of_push (p := p) (n := (p.push b).bits) (m := 0)
    (Nat.le_trans hp.low hlow) (Nat.le_trans hhigh hp.high) (Nat.div_one _)
  have h := hp.completed _ htop (by omega) (by omega)
  rw [← h, continuation, continuationByte_of_toNat hnext, continuation]

theorem encode_cons (c : Char) (s : List Char) : encode (c :: s) = encodeChar c ++ encode s := rfl

/-- Where a text is read, its bytes are those that were taken for the character under way, if any,
and then the others. -/
theorem bytes_of_decodeFrom (bytes : List UInt8) :
    (∀ {pos s}, decodeFrom pos none bytes = .ok s → bytes = encode s) ∧
    ∀ {pos p m s}, p.Begins m → decodeFrom pos (some p) bytes = .ok s →
      p.bytes ++ bytes = encode s := by
  induction bytes with
  | nil =>
    refine ⟨fun h => ?_, fun _ h => ?_⟩
    · rw [← Except.ok.inj h]
      rfl
    · cases h
  | cons b bytes ih =>
    obtain ⟨between, inside⟩ := ih
    refine ⟨fun {pos s} h => ?_, fun {pos p m s} hp h => ?_⟩
    · rw [decodeFrom] at h
      split at h
      · next hb =>
        obtain ⟨t, ht, rfl⟩ := map_eq_ok.mp h
        have hb : b.toNat < 0x80 := UInt8.lt_iff_toNat_lt.mp hb
        rw [encode_cons, encodeChar_one hb, UInt8.ofNat_toNat, ← between ht]
        rfl
      · split at h
        · cases h
        · next p hlead =>
          obtain ⟨hbytes, m, hp⟩ := begins_of_lead? hlead
          rw [← inside hp h, hbytes]
          rfl
    · rw [decodeFrom] at h
      split at h
      · next hrange =>
        obtain ⟨hlow, hhigh⟩ : p.low ≤ b.toNat ∧ b.toNat ≤ p.high := by simpa using hrange
        cases m with
        | zero =>
          have howed : (p.push b).owed = 0 := by rw [owed_push, hp.owed]
          dsimp only at h
          rw [if_pos howed] at h
          obtain ⟨t, ht, rfl⟩ := map_eq_ok.mp h
          rw [encode_cons, ← hp.encodeChar_push hlow hhigh, ← between ht,
            List.append_assoc, List.singleton_append]
        | succ m =>
          have hq := hp.push hlow hhigh
          dsimp only at h
          rw [if_neg (by rw [hq.owed]; omega)] at h
          rw [← inside hq h, bytes_push, List.append_assoc, List.singleton_append]
      · cases h

/-- The bytes of a text are the only ones that are read as it. -/
theorem decode_eq_ok_iff {bytes : List UInt8} {s : List Char} :
    decode bytes = .ok s ↔ bytes = encode s := by
  constructor
  · exact (bytes_of_decodeFrom bytes).1
  · rintro rfl
    exact decode_encode s

end Depict.Text.Utf8

import Depict.Text.CaseRanges

/-!
# Upper and lower case

The lower case of a text is exact: a capital sigma depends on the letters around
it, and a capital I with a dot becomes two characters. The upper case goes as far
as it reaches ASCII, which is all that a comparison with an ASCII word needs: a
character whose image holds anything else stands for itself there, and neither it
nor its image occurs in such a word.
-/
namespace Depict.Text

/-- The upper case of a character if that is ASCII, or else the character. -/
def upperChar (c : Char) : List Char :=
  if c = 'ß' then ['S', 'S']
  else if c = 'ı' then ['I']
  else if c = 'ſ' then ['S']
  else if c = 'ﬀ' then ['F', 'F']
  else if c = 'ﬁ' then ['F', 'I']
  else if c = 'ﬂ' then ['F', 'L']
  else if c = 'ﬃ' then ['F', 'F', 'I']
  else if c = 'ﬄ' then ['F', 'F', 'L']
  else if c = 'ﬅ' || c = 'ﬆ' then ['S', 'T']
  else [c.toUpper]

/-- The text in upper case, as far as that is ASCII. -/
def upper (s : List Char) : List Char :=
  s.flatMap upperChar

def lowerChar (c : Char) : List Char :=
  if c.toNat < 128 then [c.toLower]
  else if c = 'İ' then ['i', '\u0307']
  else match lowerRanges.find? (·.covers c.toNat) with
    | some r => [Char.ofNat (r.image + (c.toNat - r.first))]
    | none => [c]

def isCased (c : Char) : Bool :=
  casedRanges.any fun r => r.1 ≤ c.toNat && c.toNat ≤ r.2

/-- Whether the character is passed over when the letters next to one are looked for. -/
def isIgnorable (c : Char) : Bool :=
  ignorableRanges.any fun r => r.1 ≤ c.toNat && c.toNat ≤ r.2

/-- Whether the first character that counts is a letter with a case. -/
def startsCased (s : List Char) : Bool :=
  (s.dropWhile isIgnorable).head?.any isCased

/-- The lower case of a character between others; those before it are given in reverse. A capital
sigma that ends a word has a form of its own. -/
def lowerBetween (before : List Char) (c : Char) (after : List Char) : List Char :=
  if c = 'Σ' then [if startsCased before && !startsCased after then 'ς' else 'σ']
  else lowerChar c

/-- The text in lower case, after characters that are given in reverse. -/
def lowerAfter (before : List Char) : List Char → List Char
  | [] => []
  | c :: cs => lowerBetween before c cs ++ lowerAfter (c :: before) cs

def lower (s : List Char) : List Char :=
  lowerAfter [] s

theorem upper_append (s t : List Char) : upper (s ++ t) = upper s ++ upper t := by
  simp [upper]

theorem lowerBetween_of_ascii {c : Char} (before after : List Char) (hc : c.toNat < 128) :
    lowerBetween before c after = [c.toLower] := by
  have hne : c ≠ 'Σ' := by
    intro h
    subst h
    exact absurd hc (by decide)
  simp [lowerBetween, lowerChar, hne, hc]

theorem lowerAfter_of_ascii {s : List Char} (before : List Char) (hs : ∀ c ∈ s, c.toNat < 128) :
    lowerAfter before s = s.map Char.toLower := by
  induction s generalizing before with
  | nil => rfl
  | cons c cs ih =>
    have hcs := ih (c :: before) fun d hd => hs d (List.mem_cons_of_mem c hd)
    simp [lowerAfter, lowerBetween_of_ascii before cs (hs c (List.mem_cons_self ..)), hcs]

theorem lower_of_ascii {s : List Char} (hs : ∀ c ∈ s, c.toNat < 128) :
    lower s = s.map Char.toLower :=
  lowerAfter_of_ascii [] hs

end Depict.Text

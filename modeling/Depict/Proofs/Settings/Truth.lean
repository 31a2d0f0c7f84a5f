import Depict.Proofs.Outcome
import Depict.Proofs.Settings.Keeping
import Depict.Proofs.Text.Casing

/-!
# Words for truth values

A setting that is looked up as a truth value is the text that the setting has, read as one of twelve
words. Six words stand for each truth value, in any case of their ASCII letters; no other text does,
and none with a letter outside ASCII. A text that is no such word is a fault, whatever is given for
a missing value and whatever the defaults say.
-/
namespace Depict

namespace Settings

/-- The words that stand for a truth value. -/
def wordsFor : Bool → List String
  | true => ["1", "on", "t", "true", "y", "yes"]
  | false => ["0", "f", "false", "n", "no", "off"]

/-- The text is a word for the truth value, but for the case of ASCII letters. -/
def SpellsTruth (b : Bool) (raw : String) : Prop :=
  ∃ word ∈ wordsFor b, raw.toList.map Char.toLower = word.toList

/-- The fault of a setting whose value is no truth value. -/
def malformed (name raw : String) : Fault :=
  .misconfigured (.invalid name (Text.quote raw) (some truthReason))

theorem mem_truthWords_iff {word : String} {b : Bool} :
    (word, b) ∈ truthWords ↔ word ∈ wordsFor b := by
  cases b <;> simp [truthWords, wordsFor]

/-- The words are ASCII, and none has a `k`, which is the only letter of ASCII that another one has
as its lower case. -/
theorem plain_of_mem_wordsFor {word : String} {b : Bool} (hword : word ∈ wordsFor b) :
    ∀ c ∈ word.toList, c.toNat < 128 ∧ c ≠ 'k' := by
  have hall : (wordsFor b).all (fun word => word.toList.all fun c => c.toNat < 128 && c != 'k') := by
    cases b <;> decide
  intro c hc
  simpa using List.all_eq_true.mp (List.all_eq_true.mp hall word hword) c hc

theorem lookup_truthWords_iff {word : String} {b : Bool} :
    truthWords.lookup word = some b ↔ word ∈ wordsFor b := by
  rw [← mem_truthWords_iff]
  constructor
  · intro h
    obtain ⟨before, after, hsplit, -⟩ := List.lookup_eq_some_iff.mp h
    rw [hsplit]
    simp
  · have hall : ∀ p ∈ truthWords, truthWords.lookup p.1 = some p.2 := by decide
    exact hall (word, b)

/-- The lower case of a text is compared with the words, but only ASCII letters make a difference.
-/
theorem lookup_lower_iff {raw : String} {b : Bool} :
    truthWords.lookup (String.ofList (Text.lower raw.toList)) = some b ↔ SpellsTruth b raw := by
  rw [lookup_truthWords_iff]
  constructor
  · intro h
    refine ⟨_, h, ?_⟩
    rw [← Text.lower_eq_iff (plain_of_mem_wordsFor h), String.toList_ofList]
  · rintro ⟨word, hword, h⟩
    rw [(Text.lower_eq_iff (plain_of_mem_wordsFor hword)).mpr h, String.ofList_toList]
    exact hword

theorem not_spellsTruth_of_not_ascii {raw : String} (h : ∃ c ∈ raw.toList, 128 ≤ c.toNat) (b : Bool) :
    ¬ SpellsTruth b raw := by
  rintro ⟨word, hword, hcase⟩
  obtain ⟨c, hc, hcode⟩ := h
  have hsame : c.toLower = c := Text.toLower_of_not_capital (by omega)
  have hmem : c ∈ word.toList := hcase ▸ List.mem_map.mpr ⟨c, hc, hsame⟩
  exact absurd hcode (Nat.not_le.mpr (plain_of_mem_wordsFor hword c hmem).1)

/-- A text is read as the truth value that it spells. -/
theorem truthOf_eq_ok_iff (name : String) {raw : String} {b : Bool} :
    truthOf name raw = .ok b ↔ SpellsTruth b raw := by
  unfold truthOf
  rw [← lookup_lower_iff]
  split
  · next b' h =>
    rw [h]
    exact ⟨fun hb => congrArg some (Except.ok.inj hb), fun hb => congrArg _ (Option.some.inj hb)⟩
  · next h =>
    rw [h]
    exact ⟨nofun, nofun⟩

theorem truthOf_of_not_spellsTruth {name raw : String} (h : ∀ b, ¬ SpellsTruth b raw) :
    truthOf name raw = .error (malformed name raw) := by
  unfold truthOf
  split
  · next b hb => exact absurd (lookup_lower_iff.mp hb) (h b)
  · rfl

/-- Two texts that are the same but for the case of ASCII letters. -/
def CaseVariants (raw raw' : String) : Prop :=
  raw.toList.map Char.toLower = raw'.toList.map Char.toLower

/-- Two answers that are the same, or complaints about two values of the setting. -/
inductive AnswersAlike (name : String) : Except Fault (Option Bool) → Except Fault (Option Bool) → Prop
  | same (answer : Except Fault (Option Bool)) : AnswersAlike name answer answer
  | malformed (raw raw' : String) :
      AnswersAlike name (.error (malformed name raw)) (.error (malformed name raw'))

/-- A setting has the same value in the environment, and the same default, but for blanks around
them and the case of ASCII letters; or no defaults are found for the same reason. -/
structure RestyledAt (name : String) (s t : Settings) : Prop where
  environment : Option.Rel Restyled (s.environment.get? name) (t.environment.get? name)
  defaults : (∃ f, s.found = .error f ∧ t.found = .error f) ∨
    ∃ ps qs, s.found = .ok ps ∧ t.found = .ok qs ∧
      Option.Rel Restyled (ps.get? name) (qs.get? name)

/-- What is taken of two values that differ in style differs at most in the case of letters. -/
theorem usable?_restyled (name : String) {v? v'? : Option String} (h : Option.Rel Restyled v? v'?) :
    Option.Rel CaseVariants ((Query.named name).usable? v?) ((Query.named name).usable? v'?) := by
  cases h with
  | none => exact .none
  | @some v v' h =>
    have htrim := h.trim
    by_cases hv : Text.trim v.toList = []
    · have hv' : Text.trim v'.toList = [] := by
        rw [hv] at htrim
        exact List.map_eq_nil_iff.mp htrim.symm
      have hblank : ∀ w : String, Text.trim w.toList = [] →
          (Query.named name).usable? (some w) = none := by
        intro w hw
        refine Query.usable?_eq_none fun w' hw' hcounts => ?_
        exact Query.counts_named_iff.mp hcounts (Option.some.inj hw' ▸ hw)
      rw [hblank v hv, hblank v' hv']
      exact .none
    · have hv' : Text.trim v'.toList ≠ [] := by
        intro hv'
        rw [hv'] at htrim
        exact hv (List.map_eq_nil_iff.mp htrim)
      rw [Query.usable?_named hv, Query.usable?_named hv']
      refine .some ?_
      rwa [CaseVariants, String.toList_ofList, String.toList_ofList]

theorem flagOf_alike {name : String} {raw? raw'? : Option String}
    (h : Option.Rel CaseVariants raw? raw'?) (alternative : Option Bool) (required : Bool) :
    AnswersAlike name (flagOf name alternative required raw?)
      (flagOf name alternative required raw'?) := by
  cases h with
  | none => exact .same _
  | @some raw raw' h =>
    have hspells : ∀ b, SpellsTruth b raw ↔ SpellsTruth b raw' := by
      intro b
      rw [SpellsTruth, SpellsTruth, show _ = _ from h]
    rw [flagOf, flagOf]
    by_cases hb : ∃ b, SpellsTruth b raw
    · obtain ⟨b, hb⟩ := hb
      rw [(truthOf_eq_ok_iff name).mpr hb, (truthOf_eq_ok_iff name).mpr ((hspells b).mp hb)]
      exact .same _
    · rw [truthOf_of_not_spellsTruth (not_exists.mp hb),
        truthOf_of_not_spellsTruth fun b hb' => hb ⟨b, (hspells b).mpr hb'⟩]
      exact .malformed raw raw'

theorem RestyledAt.flag {name : String} {s t : Settings} (h : RestyledAt name s t)
    (alternative : Option Bool) (required : Bool) :
    AnswersAlike name (s.flag name alternative required).1 (t.flag name alternative required).1 := by
  have henvironment := usable?_restyled name h.environment
  rw [flag_eq, flag_eq, resolve_fst, resolve_fst]
  dsimp only [Query.named] at henvironment ⊢
  generalize Query.usable? _ (s.environment.get? name) = raw? at henvironment ⊢
  generalize Query.usable? _ (t.environment.get? name) = raw'? at henvironment ⊢
  cases henvironment with
  | some hraw => exact flagOf_alike (.some hraw) alternative required
  | none =>
    rcases h.defaults with ⟨f, hs, ht⟩ | ⟨ps, qs, hs, ht, hvalue⟩
    · rw [hs, ht]
      exact .same _
    · rw [hs, ht]
      exact flagOf_alike (usable?_restyled name hvalue) alternative required

/-- A text that may be missing is what the look-up gives. -/
theorem text_none_false (s : Settings) (q : Query) : s.text q none false = s.resolve q := by
  unfold text
  rcases s.resolve q with ⟨f | _ | v, t⟩ <;> rfl

theorem flagOf_some (name raw : String) (alternative : Option Bool) (required : Bool) :
    (∀ b, flagOf name alternative required (some raw) = .ok (some b) ↔ SpellsTruth b raw) ∧
      ((∀ b, ¬ SpellsTruth b raw) →
        flagOf name alternative required (some raw) = .error (malformed name raw)) := by
  refine ⟨fun b => ?_, fun h => ?_⟩
  · rw [flagOf, map_eq_ok, ← truthOf_eq_ok_iff name]
    simp
  · rw [flagOf, truthOf_of_not_spellsTruth h]
    rfl

/-- A text in the environment that is no truth value is a fault whatever the defaults are. -/
theorem flag_of_malformed {s : Settings} {name raw : String}
    (hraw : (Query.named name).usable? (s.environment.get? name) = some raw)
    (hno : ∀ b, ¬ SpellsTruth b raw) (alternative : Option Bool) (required : Bool) :
    s.flag name alternative required = (.error (malformed name raw), s) := by
  rw [flag_eq, resolve_of_environment hraw]
  exact Prod.ext ((flagOf_some name raw alternative required).2 hno) rfl

/-- Looking a setting up as a truth value is looking it up as a text, without blanks at its ends,
and reading that. A fault of the look-up stays what it is; a missing value is one only if a value is
required and no alternative is given, which is else the answer; and a text that is there is read as
the truth value that it spells. Any other text is a fault, and so is one that is not ASCII: the
alternative does not replace it, and a text in the environment is not replaced by a default either.
Blanks around the value and the case of its letters, in the environment or in the defaults, do not
matter. -/
theorem flag_answers (s : Settings) (name : String) (alternative : Option Bool) (required : Bool) :
    let resolved := s.text (.named name) none false
    let answer := s.flag name alternative required
    answer.2 = resolved.2 ∧
    (∀ f, resolved.1 = .error f → answer.1 = .error f) ∧
    (resolved.1 = .ok none → answer.1 =
      if required = true ∧ alternative = none then .error (missing name) else .ok alternative) ∧
    (∀ raw, resolved.1 = .ok (some raw) →
      (∀ b, answer.1 = .ok (some b) ↔ SpellsTruth b raw) ∧
      ((∀ b, ¬ SpellsTruth b raw) → answer.1 = .error (malformed name raw)) ∧
      ((∃ c ∈ raw.toList, 128 ≤ c.toNat) → answer.1 = .error (malformed name raw))) ∧
    (∀ v, s.environment.get? name = some v →
      let raw := String.ofList (Text.trim v.toList)
      raw ≠ "" → (∀ b, ¬ SpellsTruth b raw) → ∀ working home defaults,
        let t : Settings := { s with working, home, defaults }
        t.flag name alternative required = (.error (malformed name raw), t)) ∧
    ∀ t, RestyledAt name s t → AnswersAlike name answer.1 (t.flag name alternative required).1 := by
  intro resolved answer
  have hanswer : answer = (resolved.1 >>= flagOf name alternative required, resolved.2) := by
    change _ = ((s.text (.named name) none false).1 >>= _, (s.text (.named name) none false).2)
    rw [text_none_false]
    exact s.flag_eq name alternative required
  refine ⟨by rw [hanswer], fun f hf => ?_, fun hnone => ?_, fun raw hraw => ?_,
    ?_, fun t ht => ht.flag alternative required⟩
  · rw [hanswer, hf]
    rfl
  · rw [hanswer, hnone]
    cases required <;> cases alternative <;> rfl
  · rw [hanswer, hraw]
    obtain ⟨hspelt, hother⟩ := flagOf_some name raw alternative required
    exact ⟨hspelt, hother, fun hascii => hother (not_spellsTruth_of_not_ascii hascii)⟩
  · intro v hv raw hne hno working home defaults t
    have hblank : Text.trim v.toList ≠ [] := fun h => hne (String.ofList_eq_empty_iff.mpr h)
    have hraw : (Query.named name).usable? (t.environment.get? name) = some raw := by
      rw [show t.environment.get? name = some v from hv]
      exact Query.usable?_named hblank
    exact flag_of_malformed hraw hno alternative required

/-- A blank variable, and the line `A=' oN '` in the working file. -/
def paddedWord : Settings :=
  ⟨[("A", " ")], .content [65, 61, 39, 32, 111, 78, 32, 39], .absent, none, "/root"⟩

/-- The word is read without its blanks, like the bare one in defaults that are kept; in its place
in the environment a ligature is no pair of letters, though the default is a word. -/
theorem flag_answers_paddedWord :
    let kept := { paddedWord with working := .directory, defaults := some [("A", "on")] }
    let ligature := { paddedWord with environment := [("A", " oﬀ")] }
    (paddedWord.flag "A" (some false) true).1 = .ok (some true) ∧
      AnswersAlike "A" (paddedWord.flag "A" (some false) true).1 (kept.flag "A" (some false) true).1 ∧
      ligature.flag "A" (some true) false = (.error (malformed "A" "oﬀ"), ligature) := by
  intro kept ligature
  obtain ⟨-, -, -, hread, -, halike⟩ := flag_answers paddedWord "A" (some false) true
  obtain ⟨-, -, -, -, hmalformed, -⟩ := flag_answers ligature "A" (some true) false
  have hword : SpellsTruth true "oN" := ⟨"on", by decide, by decide⟩
  have hno : ∀ b, ¬ SpellsTruth b "oﬀ" :=
    not_spellsTruth_of_not_ascii ⟨'ﬀ', by decide, by decide⟩
  have hblank : ∀ c ∈ [' '] ++ [' '] ++ [] ++ [], Text.isBlank c = true :=
    List.all_eq_true.mp (by decide)
  have hraw : " oN ".toList = [' '] ++ ['o', 'N'] ++ [' '] := rfl
  have hbare : "on".toList = [] ++ ['o', 'n'] ++ [] := rfl
  have hpadded : Restyled " oN " "on" := .around hblank (by decide) hraw hbare
  have hspace : " ".toList = [' '] ++ [] ++ [] := rfl
  have hempty : Restyled " " " " :=
    .around (List.all_eq_true.mp (by decide)) (by decide) hspace hspace
  exact ⟨((hread "oN" rfl).1 true).mpr hword,
    halike kept ⟨.some hempty, .inr ⟨_, _, rfl, rfl, .some hpadded⟩⟩,
    hmalformed " oﬀ" rfl (by decide) hno ligature.working ligature.home ligature.defaults⟩

end Settings

end Depict

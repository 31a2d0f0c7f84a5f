import Depict.Proofs.Logging.Resolving
import Depict.Proofs.Logging.Setup
import Depict.Proofs.Outcome

/-!
# Refused wishes for a console

A wish is refused for a level that is none, for a setting that holds no level or no truth value, and
for a file that cannot be read where a setting needs it. All of this is judged in the settings before
the wish, and no handler is touched. The only other fault is one in closing the old console.
-/
namespace Depict
open Decimal Text

namespace Level

/-- A text of digits. -/
def IsNumeral (body : List Char) : Prop :=
  body ≠ [] ∧ ∀ c ∈ body, isDigit c = true

/-- The decimal digits that a text starts with. -/
def leadingDigits (body : List Char) : List Char :=
  body.takeWhile fun c => (decimalValue? c).isSome

/-- Why a trimmed text spells no level: it is neither a numeral nor a name, or it is a numeral that is
too long or has a digit without a value. -/
inductive Misspelt (body : List Char) (shown : String) : Fault → Prop
  | unknown (hn : ¬ IsNumeral body) (h : names.lookup (String.ofList (upper body)) = none) :
      Misspelt body shown (unknown shown)
  | overlong (hn : IsNumeral body) (h : digitLimit < (leadingDigits body).length) :
      Misspelt body shown (.overlong (leadingDigits body).length)
  | worthless (hn : IsNumeral body) (h : (leadingDigits body).length ≤ digitLimit)
      (hc : ∃ c ∈ body, decimalValue? c = none) :
      Misspelt body shown (.notWhole (String.ofList ((quoteChars body).take 200)))

theorem ofDigits_eq_error_iff {body : List Char} (hn : IsNumeral body) (shown : String) {f : Fault} :
    ofDigits body = .error f ↔ Misspelt body shown f := by
  unfold ofDigits
  dsimp only
  rw [← leadingDigits]
  constructor
  · intro h
    by_cases hl : digitLimit < (leadingDigits body).length
    · rw [if_pos hl] at h
      rw [← Except.error.inj h]
      exact .overlong hn hl
    · rw [if_neg hl] at h
      split at h
      · cases h
      · next hall =>
        rw [← Except.error.inj h]
        refine .worthless hn (Nat.le_of_not_lt hl) ?_
        simpa using hall
  · rintro (⟨hno, -⟩ | ⟨-, hl⟩ | ⟨-, hl, hc⟩)
    · exact absurd hn hno
    · exact if_pos hl
    · have hall : ¬ (body.all fun c => (decimalValue? c).isSome) = true := by simpa using hc
      rw [if_neg (Nat.not_lt.mpr hl), if_neg hall]

theorem ofText_eq_error_iff {characters shown : String} {f : Fault} :
    ofText characters shown = .error f ↔ Misspelt (trim characters.toList) shown f := by
  unfold ofText
  generalize trim characters.toList = body
  dsimp only
  by_cases hn : IsNumeral body
  · have hdigits : (!body.isEmpty && body.all isDigit) = true := by simpa [IsNumeral] using hn
    rw [if_pos hdigits]
    exact ofDigits_eq_error_iff hn shown
  · have hdigits : ¬ (!body.isEmpty && body.all isDigit) = true := by simpa [IsNumeral] using hn
    rw [if_neg hdigits]
    cases hl : names.lookup (String.ofList (upper body)) with
    | some n =>
      refine ⟨fun h => (nomatch h), ?_⟩
      rintro (⟨-, h⟩ | ⟨h, -⟩ | ⟨h, -⟩)
      · rw [hl] at h
        cases h
      · exact absurd h hn
      · exact absurd h hn
    | none =>
      constructor
      · intro h
        rw [← Except.error.inj h]
        exact .unknown hn hl
      · rintro (- | ⟨h, -⟩ | ⟨h, -⟩)
        · rfl
        · exact absurd h hn
        · exact absurd h hn

end Level

/-- Why no level is found: what is asked for is none, or the setting is not, or the files that it
needs cannot be read. -/
inductive LevelRequest.Refused (s : Settings) : LevelRequest → Fault → Prop
  | unsuited (holder : String) : Refused s (.unsuited holder) (.notTrimmable holder)
  | word {characters shown : String} {f : Fault}
      (h : Level.Misspelt (trim characters.toList) shown f) : Refused s (.word characters shown) f
  | octets {bytes : List UInt8} {f : Fault} (h : Level.ofBytes bytes = .error f) :
      Refused s (.octets bytes) f
  | setting {v : String} {f : Fault} (hv : (s.resolve (.named Level.setting)).1 = .ok (some v))
      (h : Level.Misspelt (trim v.toList) (quote v) f) : Refused s .absent f
  | files {f : Fault} (hq : s.Undecided (.named Level.setting)) (hf : s.Unreadable f) :
      Refused s .absent f

theorem LevelRequest.refused_iff {s : Settings} {r : LevelRequest} {f : Fault} :
    r.Refused s f ↔ (r.resolve s).1 = .error f := by
  cases r with
  | given l => exact ⟨fun h => (nomatch h), fun h => (nomatch h)⟩
  | unsuited holder =>
    constructor
    · rintro ⟨⟩
      rfl
    · intro h
      rw [← Except.error.inj h]
      exact .unsuited holder
  | word characters shown =>
    have hword : ((word characters shown).resolve s).1 = Level.ofText characters shown := rfl
    rw [hword, Level.ofText_eq_error_iff]
    constructor
    · rintro (_ | h)
      exact h
    · exact fun h => .word h
  | octets bytes =>
    constructor
    · rintro (_ | _ | h)
      exact h
    · exact fun h => .octets h
  | absent =>
    rw [resolve_absent]
    dsimp only
    rw [bind_eq_error, Settings.resolve_fst_eq_error_iff]
    constructor
    · rintro (_ | _ | _ | ⟨hv, h⟩ | ⟨hq, hf⟩)
      · refine .inr ⟨_, hv, ?_⟩
        rwa [ofSetting, Level.ofText_eq_error_iff]
      · exact .inl ⟨hq, hf⟩
    · rintro (⟨hq, hf⟩ | ⟨_ | v, hv, h⟩)
      · exact .files hq hf
      · cases h
      · rw [ofSetting, Level.ofText_eq_error_iff] at h
        exact .setting hv h

/-- Why no style is found: none is asked for, and the setting is no truth value or needs files that
cannot be read. -/
inductive Style.Refused (s : Settings) : Option Bool → Fault → Prop
  | setting {v : String} (hv : (s.resolve (.named Style.setting)).1 = .ok (some v))
      (h : Settings.truthWords.lookup (String.ofList (lower v.toList)) = none) :
      Refused s none
        (.misconfigured (.invalid Style.setting (quote v) (some Settings.truthReason)))
  | files {f : Fault} (hq : s.Undecided (.named Style.setting)) (hf : s.Unreadable f) :
      Refused s none f

theorem Settings.truthOf_eq_error_iff {name raw : String} {f : Fault} :
    truthOf name raw = .error f ↔ truthWords.lookup (String.ofList (lower raw.toList)) = none ∧
      f = .misconfigured (.invalid name (quote raw) (some truthReason)) := by
  unfold truthOf
  split
  · next b h => simp [h]
  · next h => simp [h, eq_comm]

theorem Style.refused_iff {s : Settings} {friendly? : Option Bool} {f : Fault} :
    Refused s friendly? f ↔ (resolve friendly? s).1 = .error f := by
  cases friendly? with
  | some b => exact ⟨fun h => (nomatch h), fun h => (nomatch h)⟩
  | none =>
    rw [resolve_none, Settings.flag_eq]
    dsimp only
    rw [map_eq_error, bind_eq_error, Settings.resolve_fst_eq_error_iff]
    constructor
    · rintro (⟨hv, h⟩ | ⟨hq, hf⟩)
      · exact .inr ⟨_, hv, map_eq_error.mpr (Settings.truthOf_eq_error_iff.mpr ⟨h, rfl⟩)⟩
      · exact .inl ⟨hq, hf⟩
    · rintro (⟨hq, hf⟩ | ⟨_ | v, hv, h⟩)
      · exact .files hq hf
      · cases h
      · obtain ⟨hw, rfl⟩ := Settings.truthOf_eq_error_iff.mp (map_eq_error.mp h)
        exact .setting hv hw

/-- Why a wish is refused: no level is found, or a level is and no style. -/
inductive SetupRequest.Refused (s : Settings) (r : SetupRequest) : Fault → Prop
  | level {f : Fault} (h : r.level.Refused s f) : Refused s r f
  | style {f : Fault} {level : Level} (hl : (r.level.resolve s).1 = .ok level)
      (h : Style.Refused s r.friendly f) : Refused s r f

theorem SetupRequest.refused_iff {s : Settings} {r : SetupRequest} {f : Fault} :
    r.Refused s f ↔ (r.resolve s).1 = .error f := by
  rw [resolve_fst, bind_eq_error]
  constructor
  · rintro (h | ⟨hl, h⟩)
    · exact .inl (LevelRequest.refused_iff.mp h)
    · exact .inr ⟨_, hl, map_eq_error.mpr (Style.refused_iff.mp h)⟩
  · rintro (h | ⟨level, hl, h⟩)
    · exact .level (LevelRequest.refused_iff.mpr h)
    · exact .style hl (Style.refused_iff.mpr (map_eq_error.mp h))

namespace Session

/-- In any state, a wish that is not idle and is refused fails with the fault that it is refused for
and leaves everything about the handlers as it was. No other fault comes from setting up but one
that closing the old console raises, and then nothing was wrong with the wish. -/
theorem setup_refused (s : Session) (r : SetupRequest) :
    (∀ f, r.Refused s.settings f → (s.logging.isAttached = false ∨ r.force = true) →
      (s.setup r).reply = .error f ∧ (s.setup r).session.logging = s.logging) ∧
    ∀ f, (s.setup r).reply = .error f →
      (r.Refused s.settings f ∧ (s.setup r).session.logging = s.logging) ∨
      ((∀ g, ¬ r.Refused s.settings g) ∧ s.logging.installed.isSome = true ∧
        ∃ x, s.logging.obstacle = some x ∧ x.kind ≠ .system ∧ f = .raised x) := by
  constructor
  · intro f hf hactive
    have hres := SetupRequest.refused_iff.mp hf
    rcases s.setup_cases r with ⟨ha, hforce, -⟩ | ⟨-, ⟨g, settings, hg, hs⟩ |
      ⟨level, style, settings, hg, -⟩⟩
    · simp [ha, hforce] at hactive
    · rw [hs]
      rw [hg] at hres
      exact ⟨congrArg Except.error (Except.error.inj hres), rfl⟩
    · rw [hg] at hres
      cases hres
  · intro f hreply
    rcases s.setup_cases r with ⟨-, -, hs⟩ | ⟨-, ⟨g, settings, hg, hs⟩ |
      ⟨level, style, settings, hg, ⟨g, l, out, hret, hs⟩ | ⟨l, out, -, hs⟩⟩⟩
    · rw [hs] at hreply
      cases hreply
    · rw [hs] at hreply ⊢
      left
      refine ⟨SetupRequest.refused_iff.mpr ?_, rfl⟩
      rw [hg]
      exact congrArg Except.error (Except.error.inj hreply)
    · rw [hs] at hreply
      right
      refine ⟨fun g' hg' => ?_, ?_⟩
      · have hres := SetupRequest.refused_iff.mp hg'
        rw [hg] at hres
        cases hres
      · rcases s.logging.retire_cases with ⟨-, hn⟩ | ⟨c, hi, ⟨o, -, ho⟩ | ⟨x, hx, hk, ho⟩⟩
        · rw [hn] at hret
          cases hret
        · rw [ho] at hret
          cases hret
        · rw [ho] at hret
          obtain ⟨hgx, -⟩ := Prod.mk.inj hret
          refine ⟨by rw [hi]; rfl, x, hx, hk, ?_⟩
          rw [← Except.error.inj hreply, ← Except.error.inj hgx]
    · rw [hs] at hreply
      cases hreply

/-- A console between two host handlers, another level for all, a level in the environment, and
bytes that are no text in the home file. -/
def beforeRefusal : Session :=
  (Session.mk ⟨[("OBJTOOLS_LOG_LEVEL", " 30 ")], .absent, .absent, none, "/root"⟩ .initial).run
    [.addHost, .setup ⟨.given (.number 10), some true, false⟩, .addHost, .setLevel (.number 50),
      .setSource .home (.content [255])]

/-- The level is found, and the style then needs the home file. -/
theorem setup_beforeRefusal :
    let r : SetupRequest := ⟨.absent, none, true⟩
    let t := beforeRefusal.setup r
    ∃ f, f.kind = .decoding ∧ r.Refused beforeRefusal.settings f ∧ t.reply = .error f ∧
      t.session.logging.handlers = [.host 0, .console ⟨0, .number 10, .friendly⟩, .host 1] ∧
      t.session.logging.level = .number 50 ∧ t.session.logging.closed = [] := by
  intro r t
  have hq : beforeRefusal.settings.Undecided (.named Style.setting) := by
    intro v hv
    cases hv
  have hf : beforeRefusal.settings.Unreadable (.undecodable ⟨0, [255], .badStart⟩) :=
    ⟨rfl, .inr ⟨⟨[], rfl⟩, rfl⟩⟩
  have hl : (r.level.resolve beforeRefusal.settings).1 = .ok (.number 30) := by decide +kernel
  have hr : r.Refused beforeRefusal.settings (.undecodable ⟨0, [255], .badStart⟩) :=
    .style hl (.files hq hf)
  obtain ⟨hreply, hlogging⟩ := (setup_refused beforeRefusal r).1 _ hr (.inr rfl)
  refine ⟨_, rfl, hr, hreply, ?_⟩
  rw [hlogging]
  exact ⟨rfl, rfl, rfl⟩

end Session

end Depict

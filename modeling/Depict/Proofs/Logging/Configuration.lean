import Depict.Proofs.Logging.Refusal
import Depict.Proofs.Session.Defaults

/-!
# What setting up depends on

What is asked for is never looked up, and what is not asked for is looked up in one setting: in the
environment, and behind it in the defaults. So setting up depends on the settings only through what
these one or two settings come to, and on the files only where the environment leaves one of them
open and no defaults are kept.
-/
namespace Depict
open Text

/-- The faults of files that cannot be loaded. -/
inductive Fault.OfFile : Fault → Prop
  | unreadable (path : String) :
      OfFile (.misconfigured (.unreadable "configuration" (some path)))
  | undecodable (m : Utf8.Malformed) : OfFile (.undecodable m)

namespace Settings
variable {s t : Settings} {name : String} {f : Fault}

/-- What a setting comes to: its value in the environment, or if that is missing or blank its
default; no value, if that is missing or blank as well; or the fault of the files that the defaults are
in. Blanks around a value do not count. -/
inductive Sets (s : Settings) (name : String) : Except Fault (Option String) → Prop
  | environment {v : String} (h : s.environment.get? name = some v) (hv : trim v.toList ≠ []) :
      Sets s name (.ok (some (String.ofList (trim v.toList))))
  | default {ps : Pairs} {v : String} (hq : s.Undecided (.named name)) (hps : s.found = .ok ps)
      (h : ps.get? name = some v) (hv : trim v.toList ≠ []) :
      Sets s name (.ok (some (String.ofList (trim v.toList))))
  | nothing {ps : Pairs} (hq : s.Undecided (.named name)) (hps : s.found = .ok ps)
      (h : ∀ v, ps.get? name = some v → trim v.toList = []) : Sets s name (.ok none)
  | unreadable {f : Fault} (hq : s.Undecided (.named name)) (hf : s.Unreadable f) :
      Sets s name (.error f)

theorem undecided_named_iff :
    s.Undecided (.named name) ↔ ∀ v, s.environment.get? name = some v → trim v.toList = [] := by
  simp only [Undecided, Query.counts_named_iff, ne_eq, not_not]
  rfl

theorem Sets.resolve {x : Except Fault (Option String)} (h : s.Sets name x) :
    (s.resolve (.named name)).1 = x := by
  have hname : (Query.named name).name = name := rfl
  cases h with
  | environment h hv =>
    rw [resolve_fst, hname, h, Query.usable?_named hv]
  | default hq hps h hv =>
    rw [resolve_fst, Query.usable?_eq_none hq, hps, hname]
    dsimp only
    rw [Except.map, h, Query.usable?_named hv]
  | @nothing ps hq hps h =>
    have hnone : (Query.named name).usable? (ps.get? name) = none := by
      apply Query.usable?_eq_none
      intro v hv
      rw [Query.counts_named_iff, not_not]
      exact h v hv
    rw [resolve_fst, Query.usable?_eq_none hq, hps, hname]
    dsimp only
    rw [Except.map, hnone]
  | unreadable hq hf =>
    exact resolve_fst_of_unreadable hq (found_eq_error_iff.mpr hf)

theorem exists_sets (s : Settings) (name : String) : ∃ x, s.Sets name x := by
  by_cases hq : s.Undecided (.named name)
  · cases hf : s.found with
    | error f => exact ⟨_, .unreadable hq (found_eq_error_iff.mp hf)⟩
    | ok ps =>
      by_cases h : ∀ v, ps.get? name = some v → trim v.toList = []
      · exact ⟨_, .nothing hq hf h⟩
      · obtain ⟨v, h, hv⟩ : ∃ v, ps.get? name = some v ∧ trim v.toList ≠ [] := by simpa using h
        exact ⟨_, .default hq hf h hv⟩
  · obtain ⟨v, h, hv⟩ : ∃ v, s.environment.get? name = some v ∧ trim v.toList ≠ [] := by
      simpa [undecided_named_iff] using hq
    exact ⟨_, .environment h hv⟩

theorem sets_iff {x : Except Fault (Option String)} :
    s.Sets name x ↔ (s.resolve (.named name)).1 = x := by
  refine ⟨Sets.resolve, ?_⟩
  rintro rfl
  obtain ⟨x, hx⟩ := s.exists_sets name
  rw [hx.resolve]
  exact hx

theorem ofFile_of_readFiles (h : s.readFiles = .error f) : f.OfFile := by
  have hload : ∀ (path : String) (source : Source) (g : Fault),
      source.load path = .error g → g.OfFile := by
    intro path source g hg
    cases source with
    | absent => cases hg
    | directory =>
      rw [← Except.error.inj hg]
      exact .unreadable path
    | content bytes =>
      unfold Source.load at hg
      dsimp only at hg
      split at hg
      · cases hg
      · rw [← Except.error.inj hg]
        exact .undecodable _
  rcases bind_eq_error.mp h with hw | ⟨ps, -, h⟩
  · exact hload _ _ _ hw
  · rcases bind_eq_error.mp h with hh | ⟨ps', -, h⟩
    · exact hload _ _ _ hh
    · cases h

end Settings

/-- What a level that is asked for comes to; one that is not asked for is what its setting comes to, and
the standard one if that has no value. -/
inductive LevelRequest.Wants (s : Settings) : LevelRequest → Except Fault Level → Prop
  | given (l : Level) : Wants s (.given l) (.ok l)
  | word (characters shown : String) : Wants s (.word characters shown) (Level.ofText characters shown)
  | octets (bytes : List UInt8) : Wants s (.octets bytes) (Level.ofBytes bytes)
  | unsuited (holder : String) : Wants s (.unsuited holder) (.error (.notTrimmable holder))
  | setting {x : Except Fault (Option String)} (h : s.Sets Level.setting x) :
      Wants s .absent (x >>= ofSetting)

theorem LevelRequest.wants_iff {s : Settings} {r : LevelRequest} {x : Except Fault Level} :
    r.Wants s x ↔ (r.resolve s).1 = x := by
  constructor
  · intro h
    cases h with
    | setting h => rw [resolve_absent, h.resolve]
    | _ => rfl
  · rintro rfl
    cases r with
    | given l => exact .given l
    | word characters shown => exact .word characters shown
    | octets bytes => exact .octets bytes
    | unsuited holder => exact .unsuited holder
    | absent =>
      rw [resolve_absent]
      exact .setting (Settings.sets_iff.mpr rfl)

namespace Style

/-- The style that is not asked for, when its setting has this value. -/
def ofSetting : Option String → Except Fault Style
  | none => .ok .technical
  | some v => (Settings.truthOf setting v).map ofFlag

/-- What a style that is asked for comes to; one that is not asked for is what its setting comes to,
and the technical one if that has no value. -/
inductive Wants (s : Settings) : Option Bool → Except Fault Style → Prop
  | given (b : Bool) : Wants s (some b) (.ok (ofFlag b))
  | setting {x : Except Fault (Option String)} (h : s.Sets setting x) :
      Wants s none (x >>= ofSetting)

theorem resolve_none_fst (s : Settings) :
    (resolve none s).1 = (s.resolve (.named setting)).1 >>= ofSetting := by
  rw [resolve_none, Settings.flag_eq]
  rcases (s.resolve (.named setting)).1 with f | _ | v
  · rfl
  · rfl
  · change (Except.map some (Settings.truthOf setting v)).map _ = (Settings.truthOf setting v).map _
    cases Settings.truthOf setting v <;> rfl

theorem wants_iff {s : Settings} {friendly? : Option Bool} {x : Except Fault Style} :
    Wants s friendly? x ↔ (resolve friendly? s).1 = x := by
  constructor
  · intro h
    cases h with
    | given b => rfl
    | setting h => rw [resolve_none_fst, h.resolve]
  · rintro rfl
    cases friendly? with
    | some b => exact .given b
    | none =>
      rw [resolve_none_fst]
      exact .setting (Settings.sets_iff.mpr rfl)

end Style

theorem Level.not_ofFile_of_ofBytes {bytes : List UInt8} {f : Fault}
    (h : ofBytes bytes = .error f) : ¬ f.OfFile := by
  intro hfile
  unfold ofBytes ofDigits at h
  dsimp only at h
  split at h
  · split at h
    · cases h
      cases hfile
    · split at h <;> cases h
      cases hfile
  · cases h
    cases hfile

/-- A level that is given is refused without any file. -/
theorem LevelRequest.not_ofFile_of_refused {s : Settings} {r : LevelRequest} {f : Fault}
    (hl : r ≠ .absent) (h : r.Refused s f) : ¬ f.OfFile := by
  intro hfile
  cases h with
  | unsuited holder => cases hfile
  | word hm => cases hm <;> cases hfile
  | octets hb => exact Level.not_ofFile_of_ofBytes hb hfile
  | setting => exact hl rfl
  | files => exact hl rfl

/-- The only setting that a request looks up. -/
inductive SetupRequest.LooksUp (r : SetupRequest) : String → Prop
  | level (hl : r.level = .absent) (hf : r.friendly ≠ none) : LooksUp r Level.setting
  | style (hl : r.level ≠ .absent) (hf : r.friendly = none) : LooksUp r Style.setting

/-- The files are needed for a setting that is looked up if the environment leaves it open and no
defaults are kept. A level that is given and is none is refused before that. -/
structure SetupRequest.NeedsFiles (r : SetupRequest) (s : Settings) (name : String) : Prop where
  undecided : s.Undecided (.named name)
  empty : s.defaults = none
  level : r.level = .absent ∨ ∃ level, r.level.Wants s (.ok level)

namespace SetupRequest
variable {r : SetupRequest} {s t : Settings} {name : String} {f : Fault}

theorem resolve_level_of_given (hl : r.level ≠ .absent) (s t : Settings) :
    (r.level.resolve t).1 = (r.level.resolve s).1 := by
  cases h : r.level with
  | absent => exact absurd h hl
  | _ => rfl

theorem resolve_style_of_given (hf : r.friendly ≠ none) (s t : Settings) :
    (Style.resolve r.friendly t).1 = (Style.resolve r.friendly s).1 := by
  cases h : r.friendly with
  | none => exact absurd h hf
  | some b => rfl

/-- A level that is given and is none is refused alike in all settings. -/
theorem resolve_fst_of_no_level (h : ¬ (r.level = .absent ∨ ∃ level, r.level.Wants s (.ok level)))
    (t : Settings) : (r.resolve t).1 = (r.resolve s).1 := by
  have hl : r.level ≠ .absent := fun hl => h (.inl hl)
  rw [resolve_fst, resolve_fst, resolve_level_of_given hl s t]
  cases hlevel : (r.level.resolve s).1 with
  | ok level => exact absurd (.inr ⟨level, LevelRequest.wants_iff.mpr hlevel⟩) h
  | error f => rfl

theorem not_consults_of_given (hl : r.level ≠ .absent) (hf : r.friendly ≠ none) :
    ¬ r.Consults s := by
  rintro (h | ⟨-, h⟩)
  · exact hl h.1
  · exact hf h.1

namespace LooksUp

theorem resolve_fst_congr (h : r.LooksUp name)
    (hsame : (t.resolve (.named name)).1 = (s.resolve (.named name)).1) :
    (r.resolve t).1 = (r.resolve s).1 := by
  rw [resolve_fst, resolve_fst]
  cases h with
  | level hl hf =>
    rw [hl, LevelRequest.resolve_absent, LevelRequest.resolve_absent, hsame,
      resolve_style_of_given hf s t]
  | style hl hf =>
    rw [hf, Style.resolve_none_fst, Style.resolve_none_fst, hsame, resolve_level_of_given hl s t]

theorem consults (h : r.LooksUp name) (hneeds : r.NeedsFiles s name) : r.Consults s := by
  cases h with
  | level hl hf => exact .inl ⟨hl, hneeds.undecided⟩
  | style hl hf =>
    obtain ⟨level, hw⟩ := hneeds.level.resolve_left hl
    exact .inr ⟨⟨level, LevelRequest.wants_iff.mp hw⟩, hf, hneeds.undecided⟩

/-- A request is refused with the fault of a file only where the files are needed. -/
theorem needs_files (h : r.LooksUp name) (hr : r.Refused s f) (hfile : f.OfFile) :
    r.NeedsFiles s name := by
  cases h with
  | level hl hf =>
    cases hr with
    | level hr =>
      rw [hl] at hr
      cases hr with
      | setting hv hm => cases hm <;> cases hfile
      | files hq hu => exact ⟨hq, hu.1, .inl hl⟩
    | style _ hr =>
      obtain ⟨b, hb⟩ := Option.ne_none_iff_exists'.mp hf
      rw [hb] at hr
      cases hr
  | style hl hf =>
    cases hr with
    | level hr => exact absurd hfile (LevelRequest.not_ofFile_of_refused hl hr)
    | style hlevel hr =>
      rw [hf] at hr
      cases hr with
      | setting => cases hfile
      | files hq hu => exact ⟨hq, hu.1, .inr ⟨_, LevelRequest.wants_iff.mpr hlevel⟩⟩

end LooksUp

end SetupRequest

namespace Session
variable {l : Logging} {r : SetupRequest} {s t : Settings} {name : String} {f : Fault}

theorem effect_congr (h : (r.resolve t).1 = (r.resolve s).1) :
    ((Session.mk t l).setup r).effect = ((Session.mk s l).setup r).effect := by
  rw [setup_effect, setup_effect, h]

/-- Files do not matter to a setting that the environment decides, nor where defaults are kept. -/
theorem resolve_withFiles (h : ¬ (s.Undecided (.named name) ∧ s.defaults = none))
    (working home : Source) :
    (({ s with working, home } : Settings).resolve (.named name)).1 =
      (s.resolve (.named name)).1 := by
  by_cases hq : s.Undecided (.named name)
  · have hd : s.defaults ≠ none := fun hd => h ⟨hq, hd⟩
    obtain ⟨ps, hd⟩ := Option.ne_none_iff_exists'.mp hd
    have hd' : ({ s with working, home } : Settings).defaults = some ps := hd
    have hagree : s.Agree { s with working, home } := by
      refine ⟨rfl, ?_⟩
      rw [Settings.found_of_some hd', Settings.found_of_some hd]
    exact hagree.resolve (.named name)
  · obtain ⟨v, hv, hblank⟩ : ∃ v, s.environment.get? name = some v ∧ trim v.toList ≠ [] := by
      simpa [Settings.undecided_named_iff] using hq
    have hs : s.Sets name _ := .environment hv hblank
    have ht : ({ s with working, home } : Settings).Sets name _ := .environment hv hblank
    rw [hs.resolve, ht.resolve]

/-- The fault of files that cannot be loaded comes out where they are needed, and only there. -/
theorem reply_eq_fileFault_iff (hactive : l.isAttached = false ∨ r.force = true)
    (hname : r.LooksUp name) (hf : s.readFiles = .error f) :
    ((Session.mk s l).setup r).reply = .error f ↔ r.NeedsFiles s name := by
  have hidle : ¬ (l.isAttached = true ∧ r.force = false) := by
    rintro ⟨ha, hforce⟩
    simp [ha, hforce] at hactive
  have heffect := setup_effect (Session.mk s l) r
  have hfile := Settings.ofFile_of_readFiles hf
  constructor
  · intro hreply
    cases hres : (r.resolve s).1 with
    | error g =>
      rw [hres, Logging.renew_of_error hidle, Result.effect_eq_iff, hreply] at heffect
      obtain rfl : f = g := Except.error.inj heffect.1
      exact hname.needs_files (SetupRequest.refused_iff.mpr hres) hfile
    | ok wish =>
      obtain ⟨level, style⟩ := wish
      rw [hres] at heffect
      rcases Logging.renew_of_ok hidle level style with ⟨l', out, -, h⟩ | ⟨c, x, -, -, -, h⟩
      · rw [h, Result.effect_eq_iff, hreply] at heffect
        cases heffect.1
      · rw [h, Result.effect_eq_iff, hreply] at heffect
        rw [Except.error.inj heffect.1] at hfile
        cases hfile
  · intro hneeds
    have hfound : s.found = .error f := by rw [Settings.found_of_none hneeds.empty, hf]
    have hres := resolve_fst_of_consults (hname.consults hneeds) hfound
    rw [hres, Logging.renew_of_error hidle, Result.effect_eq_iff] at heffect
    exact heffect.1

/-- While setting up is not idle, what is given is never looked up: with both given, it ends the same
in all settings and leaves them as they are. With one given, it depends on the settings only through
what the other setting comes to; the files do not matter unless they are needed, and exactly then a
fault in loading them comes out. What is not given is taken from the environment, then from the
defaults, then it is the standard. -/
theorem setup_configured (l : Logging) (r : SetupRequest)
    (hactive : l.isAttached = false ∨ r.force = true) :
    let call (s : Settings) : Result := (Session.mk s l).setup r
    (r.level ≠ .absent → r.friendly ≠ none → ∀ s t : Settings,
      (call t).effect = (call s).effect ∧ (call s).session.settings = s) ∧
    (∀ name, r.LooksUp name →
      (∀ s t x, s.Sets name x → t.Sets name x → (call t).effect = (call s).effect) ∧
      (∀ s : Settings, ¬ r.NeedsFiles s name →
        ∀ working home : Source, (call { s with working, home }).effect = (call s).effect) ∧
      ∀ s f, s.readFiles = .error f → ((call s).reply = .error f ↔ r.NeedsFiles s name)) ∧
    ∀ s : Settings, (∃ x, r.level.Wants s x) ∧ (∃ y, Style.Wants s r.friendly y) ∧
      ∀ x y, r.level.Wants s x → Style.Wants s r.friendly y →
        (call s).effect = l.renew r.force (x >>= fun level => y.map fun style => (level, style)) := by
  intro call
  refine ⟨fun hl hf s t => ⟨?_, ?_⟩, fun name hname => ⟨?_, ?_, ?_⟩, fun s => ⟨?_, ?_, ?_⟩⟩
  · apply effect_congr
    rw [SetupRequest.resolve_fst, SetupRequest.resolve_fst,
      SetupRequest.resolve_level_of_given hl s t, SetupRequest.resolve_style_of_given hf s t]
  · apply (settings_setup_leaves (Session.mk s l) r).2
    exact fun hc => SetupRequest.not_consults_of_given hl hf hc.2
  · intro s t x hs ht
    apply effect_congr
    apply hname.resolve_fst_congr
    rw [hs.resolve, ht.resolve]
  · intro s hneeds working home
    apply effect_congr
    by_cases hlevel : r.level = .absent ∨ ∃ level, r.level.Wants s (.ok level)
    · apply hname.resolve_fst_congr
      apply resolve_withFiles
      exact fun hopen => hneeds ⟨hopen.1, hopen.2, hlevel⟩
    · exact SetupRequest.resolve_fst_of_no_level hlevel _
  · intro s f hf
    exact reply_eq_fileFault_iff hactive hname hf
  · exact ⟨_, LevelRequest.wants_iff.mpr rfl⟩
  · exact ⟨_, Style.wants_iff.mpr rfl⟩
  · intro x y hx hy
    have heffect := setup_effect (Session.mk s l) r
    rw [SetupRequest.resolve_fst, LevelRequest.wants_iff.mp hx, Style.wants_iff.mp hy] at heffect
    exact heffect

/-- A level that is none and a word for the style in the environment, and files that cannot be
loaded. -/
def friendlyWord : Settings :=
  ⟨[("OBJTOOLS_LOG_LEVEL", "nonsense"), ("OBJTOOLS_LOG_USER_FRIENDLY", " Yes ")],
    .content [255], .directory, none, "/root"⟩

/-- With both given it ends as without any settings, and in the technical style. With the level given,
the style is the one of the word. With the style given and no variable, the files have to be loaded. -/
theorem setup_configured_friendlyWord :
    let bare : Settings := ⟨[], .absent, .absent, none, "/root"⟩
    let both : SetupRequest := ⟨.given (.number 10), some false, false⟩
    ((Session.mk friendlyWord .initial).setup both).effect =
        ((Session.mk bare .initial).setup both).effect ∧
      ((Session.mk bare .initial).setup both).effect =
        Logging.initial.renew false (.ok (.number 10, .technical)) ∧
      ((Session.mk friendlyWord .initial).setup ⟨.given (.number 10), none, false⟩).effect =
        Logging.initial.renew false (.ok (.number 10, .friendly)) ∧
      ((Session.mk { friendlyWord with environment := [] } .initial).setup
          ⟨.absent, some true, false⟩).reply = .error (.undecodable ⟨0, [255], .badStart⟩) := by
  intro bare both
  obtain ⟨hgiven, -, hwish⟩ := setup_configured .initial both (.inl rfl)
  obtain ⟨-, -, hlevel⟩ := setup_configured .initial ⟨.given (.number 10), none, false⟩ (.inl rfl)
  obtain ⟨-, hstyle, -⟩ := setup_configured .initial ⟨.absent, some true, false⟩ (.inl rfl)
  have hword : Style.Wants friendlyWord none (.ok .friendly) := by
    have hyes : Style.ofSetting (some "Yes") = .ok .friendly := by decide
    rw [← hyes]
    exact .setting (.environment (v := " Yes ") rfl (by decide))
  have hopen : ({ friendlyWord with environment := [] } : Settings).Undecided
      (.named Level.setting) := by
    intro v hv
    cases hv
  refine ⟨(hgiven (by simp [both]) (by simp [both]) bare friendlyWord).1, ?_, ?_, ?_⟩
  · exact (hwish bare).2.2 _ _ (.given _) (.given _)
  · exact (hlevel friendlyWord).2.2 _ _ (.given _) hword
  · exact ((hstyle _ (.level rfl (by simp))).2.2 _ _ rfl).mpr ⟨hopen, rfl, .inl rfl⟩

/-- A word that is no level is refused whatever the files hold, also where the environment leaves the
style open, no defaults are kept and the files cannot be loaded. -/
theorem setup_configured_noLevel :
    let settings (working home : Source) : Settings := ⟨[], working, home, none, "/root"⟩
    let call (working home : Source) : Result :=
      (Session.mk (settings working home) .initial).setup ⟨.ofText "nonsense", none, false⟩
    Logging.initial.isAttached = false ∧
      (settings .directory .absent).readFiles =
        .error (.misconfigured (.unreadable "configuration" (some ".env"))) ∧
      (settings .absent .absent).readFiles = .ok [] ∧
      ¬ ((∃ working home, (call working home).effect ≠ (call .absent .absent).effect) ↔
        (settings .absent .absent).Undecided (.named Style.setting) ∧
          (settings .absent .absent).defaults = none) := by
  intro settings call
  have hopen : (settings .absent .absent).Undecided (.named Style.setting) := by
    intro v hv
    cases hv
  have heffect : ∀ working home, (call working home).effect = (call .absent .absent).effect := by
    intro working home
    apply effect_congr
    apply SetupRequest.resolve_fst_of_no_level
    rintro (habsent | ⟨level, hword⟩)
    · cases habsent
    · cases hword
  refine ⟨rfl, rfl, rfl, fun h => ?_⟩
  obtain ⟨working, home, hne⟩ := h.mpr ⟨hopen, rfl⟩
  exact hne (heffect working home)

end Session

end Depict

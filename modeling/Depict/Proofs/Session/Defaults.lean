import Depict.Proofs.Logging.Resolving
import Depict.Proofs.Logging.Setup
import Depict.Proofs.Settings.Merging

/-!
# The defaults that a session keeps

A session keeps no defaults until a step needs them and both files can be read. Then it keeps the
merge of the files of that moment, and nothing but forgetting changes it: while it is kept, the
files do not matter to any look-up, and while nothing is kept, each look-up reads them anew.
-/
namespace Depict

/-- The step may look something up in the defaults. -/
def Step.isLookup : Step → Bool
  | loadDefaults => true
  | text _ _ _ => true
  | flag _ _ _ => true
  | setup _ => true
  | _ => false

namespace Session
variable {s : Session} {e : Step} {ps : Pairs} {f : Fault}

/-- The step needs the defaults. -/
def Consults (s : Session) : Step → Prop
  | .loadDefaults => True
  | .text q _ _ => s.settings.Undecided q
  | .flag name _ _ => s.settings.Undecided (.named name)
  | .setup r => ¬ (s.logging.isAttached = true ∧ r.force = false) ∧ r.Consults s.settings
  | _ => False

/-- The step needs the defaults, and both files can be read. -/
def Loads (s : Session) (e : Step) : Prop :=
  s.Consults e ∧ ∃ ps, s.settings.readFiles = .ok ps

/-- The session with other files. -/
def withFiles (s : Session) (working home : Source) : Session :=
  { s with settings := { s.settings with working, home } }

theorem settings_ofSettings {α : Type} (s : Session) (reply : α → Reply)
    (r : Except Fault α × Settings) : (s.ofSettings reply r).session.settings = r.2 := rfl

theorem reply_ofSettings {α : Type} (s : Session) (reply : α → Reply)
    (r : Except Fault α × Settings) : (s.ofSettings reply r).reply = r.1.map reply := rfl

theorem settings_setup_leaves (s : Session) (r : SetupRequest) :
    s.settings.Leaves (s.Consults (.setup r)) (s.setup r).session.settings := by
  have h := r.resolve_leaves s.settings
  rcases s.setup_cases r with ⟨ha, hf, hs⟩ | ⟨hactive, ⟨f, t, hres, hs⟩ |
    ⟨level, style, t, hres, ⟨f, l, out, -, hs⟩ | ⟨l, out, -, hs⟩⟩⟩
  · rw [hs]
    exact ⟨fun hc => absurd ⟨ha, hf⟩ hc.1, fun _ => rfl⟩
  all_goals
    rw [hs]
    rw [hres] at h
    exact ⟨fun hc => h.1 hc.2, fun hn => h.2 fun hc => hn ⟨hactive, hc⟩⟩

theorem settings_step_leaves (s : Session) (he : e.isLookup = true) :
    s.settings.Leaves (s.Consults e) (s.step e).session.settings := by
  cases e with
  | loadDefaults =>
    rw [step, settings_ofSettings, Settings.loadDefaults_eq]
    exact ⟨fun _ => rfl, fun h => absurd trivial h⟩
  | text q alternative required =>
    rw [step, settings_ofSettings, Settings.text_eq]
    exact s.settings.resolve_leaves q
  | flag name alternative required =>
    rw [step, settings_ofSettings, Settings.flag_eq]
    exact s.settings.resolve_leaves (.named name)
  | setup r => exact s.settings_setup_leaves r
  | _ => cases he

theorem defaults_step_of_not_isLookup (he : e.isLookup = false) (hforget : e ≠ .forget) :
    (s.step e).session.settings.defaults = s.settings.defaults := by
  cases e with
  | setSource place source => cases place <;> rfl
  | forget => exact absurd rfl hforget
  | loadDefaults => cases he
  | text q alternative required => cases he
  | flag name alternative required => cases he
  | setup r => cases he
  | _ => rfl

theorem isLookup_of_consults (h : s.Consults e) : e.isLookup = true := by
  cases e <;> first | rfl | exact False.elim h

theorem settings_step_of_some (h : s.settings.defaults = some ps) (he : e.isLookup = true) :
    (s.step e).session.settings = s.settings :=
  (s.settings_step_leaves he).of_some h

/-- Defaults that are kept stay until they are forgotten. -/
theorem defaults_step_of_some (h : s.settings.defaults = some ps) (hforget : e ≠ .forget) :
    (s.step e).session.settings.defaults = some ps := by
  cases he : e.isLookup with
  | false => rw [defaults_step_of_not_isLookup he hforget, h]
  | true => rw [settings_step_of_some h he, h]

/-- A step that does not need the defaults leaves them as they are. -/
theorem defaults_step_of_not_consults (h : ¬ s.Consults e) (hforget : e ≠ .forget) :
    (s.step e).session.settings.defaults = s.settings.defaults := by
  cases he : e.isLookup with
  | false => exact defaults_step_of_not_isLookup he hforget
  | true => rw [(s.settings_step_leaves he).2 h]

/-- A step that needs the defaults keeps those of both files. -/
theorem defaults_step_of_consults (h : s.settings.defaults = none) (hc : s.Consults e)
    (hr : s.settings.readFiles = .ok ps) : (s.step e).session.settings.defaults = some ps := by
  rw [(s.settings_step_leaves (isLookup_of_consults hc)).1 hc]
  exact Settings.defaults_consulted_of_ok (by rw [Settings.found_of_none h, hr])

theorem resolve_fst_of_consults {r : SetupRequest} {s : Settings} (h : r.Consults s)
    (hf : s.found = .error f) : (r.resolve s).1 = .error f := by
  rw [SetupRequest.resolve_fst, bind_eq_error]
  rcases h with ⟨habsent, hq⟩ | ⟨⟨level, hlevel⟩, hnone, hq⟩
  · left
    rw [habsent, LevelRequest.resolve_absent, Settings.resolve_fst_of_unreadable hq hf]
    rfl
  · right
    refine ⟨level, hlevel, map_eq_error.mpr ?_⟩
    rw [hnone, Style.resolve_none, Settings.flag_eq, Settings.resolve_fst_of_unreadable hq hf]
    rfl

/-- A step that needs the defaults and cannot read them fails with the fault of the files and keeps
nothing of them. -/
theorem step_of_unreadable (h : s.settings.defaults = none) (hc : s.Consults e)
    (hr : s.settings.readFiles = .error f) :
    (s.step e).reply = .error f ∧ (s.step e).session.settings = s.settings := by
  have hf : s.settings.found = .error f := by rw [Settings.found_of_none h, hr]
  refine ⟨?_, ?_⟩
  · cases e with
    | loadDefaults =>
      rw [step, reply_ofSettings, Settings.loadDefaults_eq, hf]
      rfl
    | text q alternative required =>
      rw [step, reply_ofSettings, Settings.text_eq, Settings.resolve_fst_of_unreadable hc hf]
      rfl
    | flag name alternative required =>
      rw [step, reply_ofSettings, Settings.flag_eq, Settings.resolve_fst_of_unreadable hc hf]
      rfl
    | setup r =>
      have hres := resolve_fst_of_consults hc.2 hf
      rcases s.setup_cases r with ⟨ha, hforce, -⟩ | ⟨-, ⟨g, t, hg, hs⟩ | ⟨level, style, t, hg, -⟩⟩
      · exact absurd ⟨ha, hforce⟩ hc.1
      · rw [hg] at hres
        exact (congrArg Result.reply hs).trans (congrArg Except.error (Except.error.inj hres))
      · rw [hg] at hres
        cases hres
    | _ => exact False.elim hc
  · rw [(s.settings_step_leaves (isLookup_of_consults hc)).1 hc, Settings.consulted_of_error hf]

theorem agree_withFiles (h : s.settings.defaults = some ps) (working home : Source) :
    s.settings.Agree (s.withFiles working home).settings where
  environment := rfl
  found := by
    have h' : (s.withFiles working home).settings.defaults = some ps := h
    rw [Settings.found_of_some h', Settings.found_of_some h]

theorem setup_withFiles (h : s.settings.defaults = some ps) (r : SetupRequest)
    (working home : Source) : (s.withFiles working home).setup r =
      { s.setup r with session := (s.setup r).session.withFiles working home } := by
  have h' : (s.withFiles working home).settings.defaults = some ps := h
  have hres : r.resolve s.settings = ((r.resolve s.settings).1, s.settings) :=
    Prod.ext rfl ((r.resolve_leaves s.settings).of_some h)
  have hres' : r.resolve (s.withFiles working home).settings =
      ((r.resolve s.settings).1, (s.withFiles working home).settings) :=
    Prod.ext (r.resolve_fst_congr (agree_withFiles h working home))
      ((r.resolve_leaves _).of_some h')
  have hlogging : (s.withFiles working home).logging = s.logging := rfl
  unfold setup
  rw [hres', hres, hlogging]
  split
  · rfl
  · rcases (r.resolve s.settings).1 with f | ⟨level, style⟩
    · rfl
    · rcases s.logging.retire with ⟨f | u, l, out⟩ <;> rfl

/-- While defaults are kept, the files matter to no look-up: it answers the same and leaves the
same session but for them. -/
theorem step_withFiles (h : s.settings.defaults = some ps) (he : e.isLookup = true)
    (working home : Source) : (s.withFiles working home).step e =
      { s.step e with session := (s.step e).session.withFiles working home } := by
  have h' : (s.withFiles working home).settings.defaults = some ps := h
  have hagree := agree_withFiles h working home
  cases e with
  | loadDefaults =>
    rw [step, step, Settings.loadDefaults_eq, Settings.loadDefaults_eq, hagree.found,
      Settings.consulted_of_some h, Settings.consulted_of_some h']
    rfl
  | text q alternative required =>
    rw [step, step, Settings.text_eq, Settings.text_eq, hagree.resolve,
      (Settings.resolve_leaves _ q).of_some h, (Settings.resolve_leaves _ q).of_some h']
    rfl
  | flag name alternative required =>
    rw [step, step, Settings.flag_eq, Settings.flag_eq, hagree.resolve,
      (Settings.resolve_leaves _ (.named name)).of_some h,
      (Settings.resolve_leaves _ (.named name)).of_some h']
    rfl
  | setup r => exact setup_withFiles h r working home
  | _ => cases he

/-- No step since the defaults were last forgotten loads them. -/
def Unloaded (s : Session) (steps : List Step) : Prop :=
  ∀ before e after, steps = before ++ e :: after → .forget ∉ e :: after → ¬ (s.run before).Loads e

/-- The session in which the first step since the defaults were last forgotten loads them. -/
def FirstLoad (s : Session) (steps : List Step) (t : Session) : Prop :=
  ∃ before e after, steps = before ++ e :: after ∧ .forget ∉ e :: after ∧ s.Unloaded before ∧
    s.run before = t ∧ t.Loads e

theorem run_concat (s : Session) (steps : List Step) (e : Step) :
    s.run (steps ++ [e]) = ((s.run steps).step e).session := by
  rw [run, List.foldl_append]
  rfl

/-- A step is the last one or stands among those before. -/
theorem concat_eq_append_cons {steps before after : List Step} {e x : Step}
    (h : steps ++ [e] = before ++ x :: after) :
    (before = steps ∧ x = e ∧ after = []) ∨
      ∃ rest, after = rest ++ [e] ∧ steps = before ++ x :: rest := by
  rcases List.eq_nil_or_concat' after with rfl | ⟨rest, y, rfl⟩
  · obtain ⟨hb, hx⟩ := List.append_inj' h rfl
    exact .inl ⟨hb.symm, (List.cons.inj hx).1.symm, rfl⟩
  · have h : steps ++ [e] = (before ++ x :: rest) ++ [y] := by simpa using h
    obtain ⟨hb, hy⟩ := List.append_inj' h rfl
    exact .inr ⟨rest, by rw [(List.cons.inj hy).1], hb⟩

theorem unloaded_forget (s : Session) (steps : List Step) : s.Unloaded (steps ++ [.forget]) := by
  intro before x after h hno
  rcases concat_eq_append_cons h with ⟨-, rfl, -⟩ | ⟨rest, rfl, -⟩
  · exact absurd List.mem_cons_self hno
  · exact absurd (by simp) hno

theorem Unloaded.concat {steps : List Step} (h : s.Unloaded steps) (he : ¬ (s.run steps).Loads e) :
    s.Unloaded (steps ++ [e]) := by
  intro before x after hsplit hno
  rcases concat_eq_append_cons hsplit with ⟨rfl, rfl, -⟩ | ⟨rest, rfl, hsteps⟩
  · exact he
  · refine h before x rest hsteps fun hmem => hno ?_
    rw [← List.cons_append]
    exact List.mem_append_left [e] hmem

theorem FirstLoad.concat {steps : List Step} {t : Session} (h : s.FirstLoad steps t)
    (he : e ≠ .forget) : s.FirstLoad (steps ++ [e]) t := by
  obtain ⟨before, x, after, rfl, hno, hbefore, ht, hx⟩ := h
  refine ⟨before, x, after ++ [e], by simp, ?_, hbefore, ht, hx⟩
  rw [← List.cons_append, List.mem_append, List.mem_singleton]
  exact not_or.mpr ⟨hno, he.symm⟩

theorem Unloaded.firstLoad {steps : List Step} (h : s.Unloaded steps) (he : (s.run steps).Loads e) :
    s.FirstLoad (steps ++ [e]) (s.run steps) := by
  refine ⟨steps, e, [], rfl, ?_, h, rfl, he⟩
  rw [List.mem_singleton]
  rintro rfl
  exact he.1

/-- What a session keeps after a run: nothing, and then no step loaded the defaults since they were
last forgotten, or the merge of both files at the first step that did. -/
theorem defaults_run (h : s.settings.defaults = none) (steps : List Step) :
    ((s.run steps).settings.defaults = none ∧ s.Unloaded steps) ∨
      ∃ t ps, s.FirstLoad steps t ∧ t.settings.readFiles = .ok ps ∧
        (s.run steps).settings.defaults = some ps := by
  induction steps using List.reverseRecOn with
  | nil => exact .inl ⟨h, fun before e after hsplit => by simp at hsplit⟩
  | append_singleton steps e ih =>
    rw [run_concat]
    by_cases hforget : e = .forget
    · subst hforget
      exact .inl ⟨rfl, s.unloaded_forget steps⟩
    · rcases ih with ⟨hnone, hun⟩ | ⟨t, ps, hfirst, hread, hsome⟩
      · by_cases hload : (s.run steps).Loads e
        · obtain ⟨hc, ps, hr⟩ := hload
          exact .inr ⟨_, ps, hun.firstLoad ⟨hc, ps, hr⟩, hr, defaults_step_of_consults hnone hc hr⟩
        · refine .inl ⟨?_, hun.concat hload⟩
          by_cases hc : (s.run steps).Consults e
          · cases hr : (s.run steps).settings.readFiles with
            | ok ps => exact absurd ⟨hc, ps, hr⟩ hload
            | error f => rw [(step_of_unreadable hnone hc hr).2, hnone]
          · rw [defaults_step_of_not_consults hc hforget, hnone]
      · exact .inr ⟨t, ps, hfirst.concat hforget, hread, defaults_step_of_some hsome hforget⟩

/-- After any run from a session without defaults: what is kept is nothing or the merge of the files
at the first load since the last forgetting; while it is kept no look-up sees other files; while
nothing is kept a step that needs the defaults reads both files as they are, and keeps nothing of
them if one cannot be read; and a step that does not need the defaults leaves them alone. -/
theorem run_keeps_defaults (s : Session) (h : s.settings.defaults = none) (steps : List Step) :
    let t := s.run steps
    ((t.settings.defaults = none ∧ s.Unloaded steps) ∨
      ∃ u ps, s.FirstLoad steps u ∧ IsMerge u.settings.working u.settings.home ps ∧
        t.settings.defaults = some ps) ∧
    (∀ ps, t.settings.defaults = some ps → ∀ e working home, e.isLookup = true →
      (t.withFiles working home).step e =
        { t.step e with session := (t.step e).session.withFiles working home }) ∧
    (∀ f, t.settings.Unreadable f → ∀ e, t.Consults e →
      (t.step e).reply = .error f ∧ (t.step e).session.settings = t.settings) ∧
    (t.settings.defaults = none → ∀ ps, t.settings.readFiles = .ok ps →
      IsMerge t.settings.working t.settings.home ps ∧
        ∀ e, t.Consults e → (t.step e).session.settings.defaults = some ps) ∧
    ∀ e, ¬ t.Consults e → e ≠ .forget →
      (t.step e).session.settings.defaults = t.settings.defaults := by
  intro t
  refine ⟨?_, ?_, ?_, ?_, ?_⟩
  · rcases defaults_run h steps with hnone | ⟨u, ps, hfirst, hread, hsome⟩
    · exact .inl hnone
    · exact .inr ⟨u, ps, hfirst, Settings.isMerge_of_readFiles hread, hsome⟩
  · exact fun ps hps e working home he => step_withFiles hps he working home
  · intro f hf e hc
    have hfound := Settings.found_eq_error_iff.mpr hf
    rw [Settings.found_of_none hf.1] at hfound
    exact step_of_unreadable hf.1 hc hfound
  · intro hnone ps hread
    exact ⟨Settings.isMerge_of_readFiles hread, fun e hc => defaults_step_of_consults hnone hc hread⟩
  · exact fun e hc hforget => defaults_step_of_not_consults hc hforget

/-- A file `K=1` in the working directory, and bytes that are no text in the home directory. -/
def halfReadable : Session :=
  ⟨⟨[], .content [75, 61, 49], .content [255], none, "/root"⟩, .initial⟩

/-- The first look-up fails and keeps nothing of the working file; the home file is mended to `K=2`
and `L=3`, the defaults are loaded, and the working file is taken away. -/
theorem run_halfReadable :
    let mended : List Step := [.text (.named "K") none false,
      .setSource .home (.content [75, 61, 50, 10, 76, 61, 51])]
    let t := halfReadable.run (mended ++ [.loadDefaults, .setSource .working .absent])
    (halfReadable.settings.defaults = none ∧
      (halfReadable.run mended).settings.defaults = none) ∧
    (∃ u, halfReadable.FirstLoad (mended ++ [.loadDefaults, .setSource .working .absent]) u ∧
      IsMerge u.settings.working u.settings.home [("K", "1"), ("L", "3")] ∧
      t.settings.defaults = some [("K", "1"), ("L", "3")]) ∧
    ((t.withFiles .directory .directory).step (.text (.named "K") none true)).reply =
      .ok (.text (some "1")) := by
  intro mended t
  have hsome : t.settings.defaults = some [("K", "1"), ("L", "3")] := rfl
  obtain ⟨hkept, hfiles, -⟩ := run_keeps_defaults halfReadable rfl
    (mended ++ [.loadDefaults, .setSource .working .absent])
  refine ⟨⟨rfl, rfl⟩, ?_, ?_⟩
  · rcases hkept with ⟨hnone, -⟩ | ⟨u, ps, hfirst, hmerge, hps⟩
    · exact absurd (hnone.symm.trans hsome) (by simp)
    · obtain rfl : ps = [("K", "1"), ("L", "3")] := Option.some.inj (hps.symm.trans hsome)
      exact ⟨u, hfirst, hmerge, hsome⟩
  · rw [hfiles _ hsome _ .directory .directory rfl]
    rfl

end Session

end Depict

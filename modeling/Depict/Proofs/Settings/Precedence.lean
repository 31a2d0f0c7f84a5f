import Depict.Proofs.Settings.Declarations
import Depict.Settings.Lookup

/-!
# Which source decides a setting

A value that counts in the environment decides, and then the files do not matter. Otherwise
the last declaration in the working file decides, blank or not, and only a key that this file
does not declare is looked up in the home file.
-/
namespace Depict

/-- The declarations of a file in order; what is no text has none. -/
def Source.declarations : Source → Pairs
  | absent => []
  | directory => []
  | content bytes =>
    match Text.Utf8.decode bytes with
    | .ok text => Dotenv.declarations text
    | .error _ => []

/-- A loaded file gives a key the value of its last declaration. -/
theorem Source.get?_of_load {path : String} {f : Source} {ps : Pairs} (h : f.load path = .ok ps)
    (key : String) : ps.get? key = f.declarations.last? key := by
  cases f with
  | absent =>
    rw [← Except.ok.inj h]
    rfl
  | directory => cases h
  | content bytes =>
    cases hd : Text.Utf8.decode bytes with
    | error m =>
      rw [load, hd] at h
      cases h
    | ok text =>
      rw [load, hd] at h
      rw [declarations, hd, ← Except.ok.inj h, Dotenv.parse_eq_putAll, Pairs.get?_putAll]
      exact Option.or_none

namespace Query

/-- A value that is not passed over for being blank. -/
def Counts (q : Query) (value : String) : Prop :=
  q.allowsBlank = true ∨ q.normalize value ≠ ""

theorem usable?_of_counts {q : Query} {value : String} (h : q.Counts value) :
    q.usable? (some value) = some (q.normalize value) := by
  rw [usable?, Option.map_some, Option.filter_some, if_pos]
  simpa [Counts] using h

theorem usable?_eq_none {q : Query} {value? : Option String}
    (h : ∀ v, value? = some v → ¬ q.Counts v) : q.usable? value? = none := by
  cases value? with
  | none => rfl
  | some v =>
    rw [usable?, Option.map_some, Option.filter_some, if_neg]
    simpa [Counts] using h v rfl

end Query

namespace Settings

/-- Both files as one map: the last declaration in the first file that has any. -/
theorem get?_of_readFiles {s : Settings} {working home : Pairs}
    (hw : s.loadFile .working = .ok working) (hh : s.loadFile .home = .ok home) (key : String) :
    (working.union home).get? key =
      (s.working.declarations.last? key).or (s.home.declarations.last? key) := by
  rw [Pairs.get?_union, Source.get?_of_load hw, Source.get?_of_load hh]
  rfl

theorem readFiles_of_ok {s : Settings} {working home : Pairs}
    (hw : s.loadFile .working = .ok working) (hh : s.loadFile .home = .ok home) :
    s.readFiles = .ok (working.union home) := by
  rw [readFiles, hw, hh]
  rfl

theorem readFiles_of_error {s : Settings} {f : Fault}
    (h : s.loadFile .working = .error f ∨
      (∃ ps, s.loadFile .working = .ok ps) ∧ s.loadFile .home = .error f) :
    s.readFiles = .error f := by
  rcases h with hw | ⟨⟨ps, hw⟩, hh⟩
  · rw [readFiles, hw]
    rfl
  · rw [readFiles, hw, hh]
    rfl

theorem loadDefaults_of_ok {s : Settings} {ps : Pairs} (h : s.defaults = none)
    (hr : s.readFiles = .ok ps) : s.loadDefaults = (.ok ps, { s with defaults := some ps }) := by
  rw [loadDefaults, h, hr]

theorem loadDefaults_of_error {s : Settings} {f : Fault} (h : s.defaults = none)
    (hr : s.readFiles = .error f) : s.loadDefaults = (.error f, s) := by
  rw [loadDefaults, h, hr]

theorem resolve_of_environment {s : Settings} {q : Query} {v : String}
    (h : q.usable? (s.environment.get? q.name) = some v) : s.resolve q = (.ok (some v), s) := by
  rw [resolve, h]

theorem resolve_of_defaults {s t : Settings} {q : Query} {ps : Pairs}
    (h : q.usable? (s.environment.get? q.name) = none) (hl : s.loadDefaults = (.ok ps, t)) :
    s.resolve q = (.ok (q.usable? (ps.get? q.name)), t) := by
  rw [resolve, h, hl]

theorem resolve_of_error {s t : Settings} {q : Query} {f : Fault}
    (h : q.usable? (s.environment.get? q.name) = none) (hl : s.loadDefaults = (.error f, t)) :
    s.resolve q = (.error f, t) := by
  rw [resolve, h, hl]

section
variable {s t : Settings} {q : Query}

theorem text_of_some {v : String} (h : s.resolve q = (.ok (some v), t)) (alternative : Option String)
    (required : Bool) : s.text q alternative required = (.ok (some v), t) := by
  rw [text, h]

theorem text_of_none (h : s.resolve q = (.ok none, t)) (alternative : Option String)
    (required : Bool) : s.text q alternative required =
      (if required then .error (missing q.name) else .ok alternative, t) := by
  rw [text, h]

theorem text_of_error {f : Fault} (h : s.resolve q = (.error f, t)) (alternative : Option String)
    (required : Bool) : s.text q alternative required = (.error f, t) := by
  rw [text, h]

end

/-- What decides a setting while no defaults are kept. In the first case the answer is the same
for all files, and they are not read: nothing is kept of them. -/
theorem text_precedence (s : Settings) (q : Query) (alternative : Option String) (required : Bool)
    (h : s.defaults = none) :
    (∀ v, s.environment.get? q.name = some v → q.Counts v → ∀ working home : Source,
      ({ s with working, home } : Settings).text q alternative required =
        (.ok (some (q.normalize v)), { s with working, home })) ∧
    ((∀ v, s.environment.get? q.name = some v → ¬ q.Counts v) →
      (∀ working home : Pairs, s.loadFile .working = .ok working → s.loadFile .home = .ok home →
        let declared :=
          (s.working.declarations.last? q.name).or (s.home.declarations.last? q.name)
        (∀ v, declared = some v → q.Counts v →
          (s.text q alternative required).1 = .ok (some (q.normalize v))) ∧
        ((∀ v, declared = some v → ¬ q.Counts v) →
          (s.text q alternative required).1 =
            if required then .error (missing q.name) else .ok alternative)) ∧
      ∀ f, (s.loadFile .working = .error f ∨
          (∃ ps, s.loadFile .working = .ok ps) ∧ s.loadFile .home = .error f) →
        (s.text q alternative required).1 = .error f) := by
  refine ⟨?_, fun henv => ⟨?_, ?_⟩⟩
  · intro v hv hcounts working home
    have hr := resolve_of_environment (s := { s with working, home }) (q := q)
      (by rw [hv, Query.usable?_of_counts hcounts])
    exact text_of_some hr alternative required
  · intro working home hw hh
    have hr := resolve_of_defaults (Query.usable?_eq_none henv)
      (loadDefaults_of_ok h (readFiles_of_ok hw hh))
    rw [get?_of_readFiles hw hh] at hr
    refine ⟨fun v hv hcounts => ?_, fun hnone => ?_⟩
    · rw [hv, Query.usable?_of_counts hcounts] at hr
      rw [text_of_some hr]
    · rw [Query.usable?_eq_none hnone] at hr
      rw [text_of_none hr]
  · intro f hf
    have hr := resolve_of_error (Query.usable?_eq_none henv)
      (loadDefaults_of_error h (readFiles_of_error hf))
    rw [text_of_error hr]

/-- A blank variable, the line `K=` in the working file and the line `K=h` in the home file. -/
def blankInWorking : Settings :=
  ⟨[("K", " ")], .content [75, 61], .content [75, 61, 104], none, "/root"⟩

/-- The blank declaration hides the one in the home file; a variable that counts hides both, and
bytes that are no text in their place. -/
theorem text_blankInWorking :
    (blankInWorking.defaults = none ∧
      blankInWorking.loadFile .working = .ok [("K", "")] ∧
      blankInWorking.loadFile .home = .ok [("K", "h")] ∧
      (blankInWorking.text (.named "K") (some "x") true).1 = .error (missing "K")) ∧
    let s := { blankInWorking with
      environment := [("K", " v ")], working := .content [255], home := .directory }
    s.text (.named "K") none true = (.ok (some "v"), s) := by
  have hblank : ∀ v, blankInWorking.environment.get? "K" = some v → ¬ (Query.named "K").Counts v := by
    intro v hv
    rw [← Option.some.inj hv, Query.Counts]
    decide
  have hdeclared : ∀ v, (blankInWorking.working.declarations.last? "K").or
      (blankInWorking.home.declarations.last? "K") = some v → ¬ (Query.named "K").Counts v := by
    intro v hv
    rw [← Option.some.inj hv, Query.Counts]
    decide
  have hcounts : (Query.named "K").Counts " v " := Or.inr (by decide)
  have h := text_precedence blankInWorking (.named "K") (some "x") true rfl
  have h' := text_precedence { blankInWorking with environment := [("K", " v ")] } (.named "K") none
    true rfl
  exact ⟨⟨rfl, rfl, rfl, ((h.2 hblank).1 _ _ rfl rfl).2 hdeclared⟩,
    h'.1 " v " rfl hcounts (.content [255]) .directory⟩

end Settings

end Depict

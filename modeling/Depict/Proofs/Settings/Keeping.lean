import Depict.Proofs.Settings.Precedence

/-!
# Look-ups and what they keep

A look-up that the environment does not decide needs the defaults. They are the ones that are kept
or else those of both files, and then they are kept. What it answers depends only on the
environment and on the defaults that it finds, so one look-up does not change what another says.
-/
namespace Depict

theorem Query.usable?_eq_none_iff {q : Query} {value? : Option String} :
    q.usable? value? = none ↔ ∀ v, value? = some v → ¬ q.Counts v := by
  refine ⟨?_, usable?_eq_none⟩
  rintro h v rfl hv
  rw [usable?_of_counts hv] at h
  cases h

theorem Query.counts_named_iff {name value : String} :
    (named name).Counts value ↔ Text.trim value.toList ≠ [] := by
  have hempty : String.ofList (Text.trim value.toList) = "" ↔ Text.trim value.toList = [] :=
    String.ofList_eq_empty_iff
  simp [Counts, named, normalize, hempty]

/-- A value that is not blank counts, without the blanks around it. -/
theorem Query.usable?_named {name value : String} (hblank : Text.trim value.toList ≠ []) :
    (named name).usable? (some value) = some (String.ofList (Text.trim value.toList)) :=
  usable?_of_counts (counts_named_iff.mpr hblank)

namespace Settings
variable {s t : Settings} {q : Query}

/-- The environment has no value of the setting that counts. -/
def Undecided (s : Settings) (q : Query) : Prop :=
  ∀ v, s.environment.get? q.name = some v → ¬ q.Counts v

/-- One of the files cannot be read and is needed, for no defaults are kept. -/
def Unreadable (s : Settings) (f : Fault) : Prop :=
  s.defaults = none ∧ (s.loadFile .working = .error f ∨
    (∃ ps, s.loadFile .working = .ok ps) ∧ s.loadFile .home = .error f)

/-- The defaults that a look-up finds: those that are kept, or else those of both files. -/
def found (s : Settings) : Except Fault Pairs :=
  match s.defaults with
  | some ps => .ok ps
  | none => s.readFiles

/-- The settings after a look-up that needs the defaults. -/
def consulted (s : Settings) : Settings :=
  match s.found with
  | .ok ps => { s with defaults := some ps }
  | .error _ => s

theorem found_of_some {ps : Pairs} (h : s.defaults = some ps) : s.found = .ok ps := by
  rw [found, h]

theorem found_of_none (h : s.defaults = none) : s.found = s.readFiles := by
  rw [found, h]

theorem found_eq_error_iff {f : Fault} : s.found = .error f ↔ s.Unreadable f := by
  constructor
  · intro h
    cases hd : s.defaults with
    | some ps =>
      rw [found_of_some hd] at h
      cases h
    | none =>
      rw [found_of_none hd] at h
      refine ⟨hd, ?_⟩
      cases hw : s.loadFile .working with
      | error g =>
        rw [readFiles_of_error (.inl hw)] at h
        exact .inl h
      | ok working =>
        refine .inr ⟨⟨working, rfl⟩, ?_⟩
        cases hh : s.loadFile .home with
        | error g =>
          rw [readFiles_of_error (.inr ⟨⟨working, hw⟩, hh⟩)] at h
          exact h
        | ok home =>
          rw [readFiles_of_ok hw hh] at h
          cases h
  · rintro ⟨hd, hf⟩
    rw [found_of_none hd, readFiles_of_error hf]

@[simp] theorem environment_consulted (s : Settings) :
    s.consulted.environment = s.environment := by
  unfold consulted
  split <;> rfl

theorem defaults_consulted_of_ok {ps : Pairs} (h : s.found = .ok ps) :
    s.consulted.defaults = some ps := by
  rw [consulted, h]

theorem consulted_of_error {f : Fault} (h : s.found = .error f) : s.consulted = s := by
  rw [consulted, h]

theorem consulted_of_some {ps : Pairs} (h : s.defaults = some ps) : s.consulted = s := by
  rw [consulted, found_of_some h]
  exact congrArg (fun d => { s with defaults := d }) h.symm

@[simp] theorem found_consulted (s : Settings) : s.consulted.found = s.found := by
  cases h : s.found with
  | ok ps => exact found_of_some (defaults_consulted_of_ok h)
  | error f => rw [consulted_of_error h, h]

@[simp] theorem consulted_consulted (s : Settings) : s.consulted.consulted = s.consulted := by
  cases h : s.found with
  | ok ps => exact consulted_of_some (defaults_consulted_of_ok h)
  | error f => rw [consulted_of_error h, consulted_of_error h]

theorem loadDefaults_eq (s : Settings) : s.loadDefaults = (s.found, s.consulted) := by
  cases hd : s.defaults with
  | some ps => rw [consulted_of_some hd, found_of_some hd, loadDefaults, hd]
  | none =>
    cases hr : s.readFiles with
    | ok ps => rw [loadDefaults_of_ok hd hr, consulted, found_of_none hd, hr]
    | error f => rw [loadDefaults_of_error hd hr, consulted, found_of_none hd, hr]

/-- What settings become in which the defaults are needed or not. -/
def Leaves (s : Settings) (needs : Prop) (t : Settings) : Prop :=
  (needs → t = s.consulted) ∧ (¬ needs → t = s)

/-- Two settings in which every look-up finds the same. -/
structure Agree (s t : Settings) : Prop where
  environment : t.environment = s.environment
  found : t.found = s.found

/-- Defaults that are needed a second time are those that were kept. -/
theorem Leaves.trans {u : Settings} {p p' : Prop} (h : s.Leaves p t) (h' : t.Leaves p' u) :
    s.Leaves (p ∨ p') u := by
  by_cases hp : p
  · obtain rfl := h.1 hp
    refine ⟨fun _ => ?_, fun hn => absurd (.inl hp) hn⟩
    by_cases hp' : p'
    · rw [h'.1 hp', consulted_consulted]
    · exact h'.2 hp'
  · obtain rfl := h.2 hp
    exact ⟨fun hor => h'.1 (hor.resolve_left hp), fun hn => h'.2 fun hp' => hn (.inr hp')⟩

/-- Where defaults are kept already, nothing changes. -/
theorem Leaves.of_some {ps : Pairs} {p : Prop} (hd : s.defaults = some ps) (h : s.Leaves p t) :
    t = s := by
  by_cases hp : p
  · rw [h.1 hp, consulted_of_some hd]
  · exact h.2 hp

theorem Leaves.agree {p : Prop} (h : s.Leaves p t) : s.Agree t := by
  by_cases hp : p
  · rw [h.1 hp]
    exact ⟨s.environment_consulted, s.found_consulted⟩
  · rw [h.2 hp]
    exact ⟨rfl, rfl⟩

theorem Agree.undecided (h : s.Agree t) (q : Query) : t.Undecided q ↔ s.Undecided q := by
  rw [Undecided, Undecided, h.environment]

theorem resolve_fst (s : Settings) (q : Query) :
    (s.resolve q).1 =
      match q.usable? (s.environment.get? q.name) with
      | some v => .ok (some v)
      | none => s.found.map fun ps => q.usable? (ps.get? q.name) := by
  cases hu : q.usable? (s.environment.get? q.name) with
  | some v => rw [resolve_of_environment hu]
  | none =>
    have hload := s.loadDefaults_eq
    cases hf : s.found with
    | ok ps =>
      rw [hf] at hload
      rw [resolve_of_defaults hu hload]
      rfl
    | error f =>
      rw [hf] at hload
      rw [resolve_of_error hu hload]
      rfl

theorem resolve_leaves (s : Settings) (q : Query) : s.Leaves (s.Undecided q) (s.resolve q).2 := by
  refine ⟨fun h => ?_, fun h => ?_⟩
  · have hload := s.loadDefaults_eq
    rw [resolve, Query.usable?_eq_none h, hload]
    cases s.found <;> rfl
  · cases hu : q.usable? (s.environment.get? q.name) with
    | none => exact absurd (Query.usable?_eq_none_iff.mp hu) h
    | some v => rw [resolve_of_environment hu]

theorem resolve_fst_of_unreadable {f : Fault} (hq : s.Undecided q) (hf : s.found = .error f) :
    (s.resolve q).1 = .error f := by
  rw [resolve_fst, Query.usable?_eq_none hq, hf]
  rfl

/-- A look-up fails only if the files are needed and one of them cannot be read. -/
theorem resolve_fst_eq_error_iff {f : Fault} :
    (s.resolve q).1 = .error f ↔ s.Undecided q ∧ s.Unreadable f := by
  rw [← found_eq_error_iff]
  refine ⟨fun h => ?_, fun h => resolve_fst_of_unreadable h.1 h.2⟩
  rw [resolve_fst] at h
  split at h
  · cases h
  · next hu =>
    refine ⟨Query.usable?_eq_none_iff.mp hu, ?_⟩
    cases hf : s.found with
    | ok ps =>
      rw [hf] at h
      cases h
    | error g =>
      rw [hf] at h
      exact congrArg Except.error (Except.error.inj h)

theorem Agree.resolve (h : s.Agree t) (q : Query) : (t.resolve q).1 = (s.resolve q).1 := by
  rw [resolve_fst, resolve_fst, h.environment, h.found]

/-- The text that is answered when a look-up gives this. -/
def textOf (name : String) (alternative : Option String) (required : Bool) :
    Option String → Except Fault (Option String)
  | some v => .ok (some v)
  | none => if required then .error (missing name) else .ok alternative

/-- The truth value that is answered when a look-up gives this. -/
def flagOf (name : String) (alternative : Option Bool) (required : Bool) :
    Option String → Except Fault (Option Bool)
  | some raw => (truthOf name raw).map some
  | none => if required && alternative.isNone then .error (missing name) else .ok alternative

theorem text_eq (s : Settings) (q : Query) (alternative : Option String) (required : Bool) :
    s.text q alternative required =
      ((s.resolve q).1 >>= textOf q.name alternative required, (s.resolve q).2) := by
  unfold text
  rcases s.resolve q with ⟨f | _ | v, t⟩ <;> rfl

theorem flag_eq (s : Settings) (name : String) (alternative : Option Bool) (required : Bool) :
    s.flag name alternative required =
      ((s.resolve (.named name)).1 >>= flagOf name alternative required,
        (s.resolve (.named name)).2) := by
  unfold flag
  rcases s.resolve (.named name) with ⟨f | _ | raw, t⟩ <;> rfl

end Settings

end Depict

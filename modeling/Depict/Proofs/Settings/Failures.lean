import Depict.Proofs.Outcome
import Depict.Proofs.Settings.Keeping
import Depict.Proofs.Settings.Printing
import Depict.Proofs.Text.Utf8

/-!
# How look-ups fail

Loading a file and looking up a setting give a value or fail as a misconfiguration, whatever the
environment, the files and the kept defaults are. The one exception is a garbled file, whose bytes
are those of no text: where such a file is read, the failure is one of decoding.
-/
namespace Depict
variable {α β : Type}

/-- How a computation ends: as a misconfiguration if something is wrong, as a failure to decode if
garbled bytes were read, and otherwise with a value. -/
structure Ends (wrong garbled : Prop) (x : Except Fault α) : Prop where
  value : ¬ wrong → ¬ garbled → ∃ a, x = .ok a
  misconfigured : wrong → ∃ m, x = .error (.misconfigured m)
  undecodable : garbled → ∃ m, x = .error (.undecodable m)

namespace Ends
variable {wrong wrong' garbled garbled' : Prop}

theorem of_ok (a : α) : Ends False False (.ok a) :=
  ⟨fun _ _ => ⟨a, rfl⟩, fun h => h.elim, fun h => h.elim⟩

theorem of_misconfigured (m : Misconfiguration) :
    Ends True False (.error (.misconfigured m) : Except Fault α) :=
  ⟨fun h => absurd trivial h, fun _ => ⟨m, rfl⟩, fun h => h.elim⟩

theorem congr {x : Except Fault α} (h : Ends wrong garbled x) (hw : wrong ↔ wrong')
    (hg : garbled ↔ garbled') : Ends wrong' garbled' x := by
  rw [← hw, ← hg]
  exact h

theorem exists_ok_iff {x : Except Fault α} (h : Ends wrong garbled x) :
    (∃ a, x = .ok a) ↔ ¬ wrong ∧ ¬ garbled := by
  constructor
  · rintro ⟨a, rfl⟩
    exact ⟨fun hw => (nomatch h.misconfigured hw), fun hg => (nomatch h.undecodable hg)⟩
  · exact fun hn => h.value hn.1 hn.2

/-- What follows a computation matters only where that has a value. -/
theorem bind {x : Except Fault α} {k : α → Except Fault β} {w g : α → Prop}
    (hx : Ends wrong garbled x) (hk : ∀ a, Ends (w a) (g a) (k a)) :
    Ends (wrong ∨ ∃ a, x = .ok a ∧ w a) (garbled ∨ ∃ a, x = .ok a ∧ g a) (x >>= k) := by
  cases x with
  | error e =>
    have hnone : ∀ {p : α → Prop}, ¬ ∃ a, (.error e : Except Fault α) = .ok a ∧ p a := by
      rintro p ⟨a, ha, -⟩
      cases ha
    refine ⟨fun hw hg => ?_, fun hw => ?_, fun hg => ?_⟩
    · obtain ⟨a, ha⟩ := hx.value (mt .inl hw) (mt .inl hg)
      cases ha
    · obtain ⟨m, hm⟩ := hx.misconfigured (hw.resolve_right hnone)
      exact ⟨m, bind_eq_error.mpr (.inl hm)⟩
    · obtain ⟨m, hm⟩ := hx.undecodable (hg.resolve_right hnone)
      exact ⟨m, bind_eq_error.mpr (.inl hm)⟩
  | ok a =>
    obtain ⟨hw, hg⟩ := hx.exists_ok_iff.mp ⟨a, rfl⟩
    have hthis : ∀ {p : α → Prop}, p a ↔ ∃ b, (.ok a : Except Fault α) = .ok b ∧ p b := by
      intro p
      refine ⟨fun h => ⟨a, rfl, h⟩, ?_⟩
      rintro ⟨b, hb, h⟩
      rw [Except.ok.inj hb]
      exact h
    exact (hk a).congr (hthis.trans (or_iff_right hw).symm) (hthis.trans (or_iff_right hg).symm)

theorem map {x : Except Fault α} (h : Ends wrong garbled x) (f : α → β) :
    Ends wrong garbled (x.map f) := by
  refine ⟨fun hw hg => ?_, fun hw => ?_, fun hg => ?_⟩
  · obtain ⟨a, rfl⟩ := h.value hw hg
    exact ⟨f a, rfl⟩
  · obtain ⟨m, hm⟩ := h.misconfigured hw
    exact ⟨m, map_eq_error.mpr hm⟩
  · obtain ⟨m, hm⟩ := h.undecodable hg
    exact ⟨m, map_eq_error.mpr hm⟩

end Ends

/-- A file whose bytes are those of no text. -/
def Source.Garbled : Source → Prop
  | content bytes => ∀ text, bytes ≠ Text.Utf8.encode text
  | _ => False

theorem Source.load_ends (path : String) (f : Source) :
    Ends (f = .directory) f.Garbled (f.load path) := by
  cases f with
  | absent => exact (Ends.of_ok _).congr (by simp) Iff.rfl
  | directory => exact (Ends.of_misconfigured _).congr (by simp) Iff.rfl
  | content bytes =>
    cases hd : Text.Utf8.decode bytes with
    | ok text =>
      rw [load, hd]
      refine (Ends.of_ok _).congr (by simp) ⟨fun h => h.elim, fun h => ?_⟩
      exact h text (Text.Utf8.decode_eq_ok_iff.mp hd)
    | error m =>
      have hgarbled : (content bytes).Garbled := by
        rintro text htext
        rw [Text.Utf8.decode_eq_ok_iff.mpr htext] at hd
        cases hd
      rw [load, hd]
      refine ⟨fun _ h => absurd hgarbled h, fun h => ?_, fun _ => ⟨m, rfl⟩⟩
      cases h

namespace Settings

/-- No defaults are kept and reading them meets a directory in place of a file: in the working
directory, or in the home directory behind a file that is not garbled. -/
def Blocked (s : Settings) : Prop :=
  s.defaults = none ∧ (s.working = .directory ∨ ¬ s.working.Garbled ∧ s.home = .directory)

/-- No defaults are kept and reading them meets a garbled file: in the working directory, or in the
home directory, whose file is read unless there is a directory in place of the first one. -/
def Garbled (s : Settings) : Prop :=
  s.defaults = none ∧ (s.working.Garbled ∨ s.working ≠ .directory ∧ s.home.Garbled)

theorem readFiles_ends (s : Settings) :
    Ends (s.working = .directory ∨ ¬ s.working.Garbled ∧ s.home = .directory)
      (s.working.Garbled ∨ s.working ≠ .directory ∧ s.home.Garbled) s.readFiles := by
  have hw : Ends (s.working = .directory) s.working.Garbled (s.loadFile .working) :=
    s.working.load_ends _
  have hh : Ends (s.home = .directory) s.home.Garbled (s.loadFile .home) := s.home.load_ends _
  have h := hw.bind fun working => hh.map working.union
  have hread : s.readFiles =
      s.loadFile .working >>= fun working => (s.loadFile .home).map working.union := rfl
  rw [hread]
  refine h.congr ?_ ?_
  · rw [exists_and_right, hw.exists_ok_iff]
    tauto
  · rw [exists_and_right, hw.exists_ok_iff]
    tauto

theorem found_ends (s : Settings) : Ends s.Blocked s.Garbled s.found := by
  unfold Blocked Garbled
  cases hd : s.defaults with
  | some ps =>
    rw [found_of_some hd]
    exact (Ends.of_ok ps).congr (by simp) (by simp)
  | none =>
    rw [found_of_none hd]
    exact s.readFiles_ends.congr (by simp) (by simp)

theorem resolve_ends (s : Settings) (q : Query) :
    Ends (s.Undecided q ∧ s.Blocked) (s.Undecided q ∧ s.Garbled) (s.resolve q).1 := by
  rw [resolve_fst]
  cases hu : q.usable? (s.environment.get? q.name) with
  | some v =>
    have hdecided : ¬ s.Undecided q := by
      intro hq
      rw [Query.usable?_eq_none hq] at hu
      cases hu
    exact (Ends.of_ok _).congr (by simp [hdecided]) (by simp [hdecided])
  | none =>
    have hq : s.Undecided q := Query.usable?_eq_none_iff.mp hu
    exact (s.found_ends.map _).congr (and_iff_right hq).symm (and_iff_right hq).symm

theorem textOf_ends (name : String) (alternative : Option String) (required : Bool)
    (v? : Option String) :
    Ends (v? = none ∧ required = true) False (textOf name alternative required v?) := by
  cases v? with
  | some v => exact (Ends.of_ok _).congr (by simp) Iff.rfl
  | none =>
    cases required with
    | true => exact (Ends.of_misconfigured _).congr (by simp) Iff.rfl
    | false => exact (Ends.of_ok _).congr (by simp) Iff.rfl

/-- The text is no word for a truth value. -/
def NoTruth (raw : String) : Prop :=
  truthWords.lookup (String.ofList (Text.lower raw.toList)) = none

theorem truthOf_ends (name raw : String) : Ends (NoTruth raw) False (truthOf name raw) := by
  unfold truthOf
  split
  · next b h => exact (Ends.of_ok b).congr (by simp [NoTruth, h]) Iff.rfl
  · next h => exact (Ends.of_misconfigured _).congr (by simp [NoTruth, h]) Iff.rfl

theorem flagOf_ends (name : String) (alternative : Option Bool) (required : Bool)
    (v? : Option String) :
    Ends ((v? = none ∧ required = true ∧ alternative = none) ∨ ∃ v, v? = some v ∧ NoTruth v) False
      (flagOf name alternative required v?) := by
  cases v? with
  | some raw => exact ((truthOf_ends name raw).map some).congr (by simp) Iff.rfl
  | none =>
    rw [flagOf]
    split
    · next h => exact (Ends.of_misconfigured _).congr (by simpa using h) Iff.rfl
    · next h => exact (Ends.of_ok _).congr (by simpa using h) Iff.rfl

/-- Loading a file fails as a misconfiguration where there is a directory, and looking up a setting
where its value is needed and missing or is no truth value, or where the defaults are needed and
blocked. Nothing else fails but decoding, in any settings and with any arguments: a file that is
garbled, or one among the defaults where they are needed. -/
theorem lookUps_end (s : Settings) :
    (∀ path (f : Source), Ends (f = .directory) f.Garbled (f.load path)) ∧
    (∀ q alternative required,
      Ends (s.Undecided q ∧ s.Blocked ∨ (s.resolve q).1 = .ok none ∧ required = true)
        (s.Undecided q ∧ s.Garbled) (s.text q alternative required).1) ∧
    ∀ name alternative required,
      Ends (s.Undecided (.named name) ∧ s.Blocked ∨
          (s.resolve (.named name)).1 = .ok none ∧ required = true ∧ alternative = none ∨
          ∃ v, (s.resolve (.named name)).1 = .ok (some v) ∧ NoTruth v)
        (s.Undecided (.named name) ∧ s.Garbled) (s.flag name alternative required).1 := by
  refine ⟨Source.load_ends, fun q alternative required => ?_,
    fun name alternative required => ?_⟩
  · have h := (s.resolve_ends q).bind (textOf_ends q.name alternative required)
    rw [text_eq]
    exact h.congr (by simp) (by simp)
  · have h := (s.resolve_ends (.named name)).bind (flagOf_ends name alternative required)
    rw [flag_eq]
    refine h.congr (or_congr_right ⟨?_, ?_⟩) (by simp)
    · rintro ⟨_, hv, ⟨rfl, hmissing⟩ | ⟨v, rfl, hno⟩⟩
      · exact .inl ⟨hv, hmissing⟩
      · exact .inr ⟨v, hv, hno⟩
    · rintro (⟨hv, hmissing⟩ | ⟨v, hv, hno⟩)
      · exact ⟨none, hv, .inl ⟨rfl, hmissing⟩⟩
      · exact ⟨some v, hv, .inr ⟨v, rfl, hno⟩⟩

/-- A byte that starts no character in the working file, and an empty environment: loading and
looking up fail, but as no misconfiguration. -/
theorem lookUps_strayByte :
    let s : Settings := ⟨[], .content [255], .absent, none, "/root"⟩
    let f : Fault := .undecodable ⟨0, [255], .badStart⟩
    s.loadFile .working = .error f ∧ (s.text (.named "A") none false).1 = .error f ∧
      (s.flag "A" none false).1 = .error f ∧ f.kind ≠ .configuration :=
  ⟨rfl, rfl, rfl, by decide⟩

end Settings

end Depict

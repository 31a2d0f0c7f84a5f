import Depict.Proofs.Settings.Keeping
import Depict.Session

/-!
# The look-ups of setting up

Setting up looks up the level and then the style, each only where nothing is given. The second
look-up answers in the settings that the first one leaves what it would answer in those before.
-/
namespace Depict

namespace LevelRequest

/-- The level that is not asked for, when its setting has this value. -/
def ofSetting : Option String → Except Fault Level
  | none => .ok .standard
  | some v => Level.ofText v (Text.quote v)

/-- Resolving the level needs the defaults. -/
def Consults (r : LevelRequest) (s : Settings) : Prop :=
  r = .absent ∧ s.Undecided (.named Level.setting)

theorem resolve_absent (s : Settings) :
    absent.resolve s =
      ((s.resolve (.named Level.setting)).1 >>= ofSetting,
        (s.resolve (.named Level.setting)).2) := by
  unfold resolve
  rcases s.resolve (.named Level.setting) with ⟨f | _ | v, t⟩ <;> rfl

theorem resolve_leaves (r : LevelRequest) (s : Settings) :
    s.Leaves (r.Consults s) (r.resolve s).2 := by
  cases r with
  | absent =>
    have h := s.resolve_leaves (.named Level.setting)
    rw [resolve_absent]
    exact ⟨fun hc => h.1 hc.2, fun hn => h.2 fun hu => hn ⟨rfl, hu⟩⟩
  | _ => exact ⟨fun hc => (nomatch hc.1), fun _ => rfl⟩

theorem resolve_fst_congr {s t : Settings} (h : s.Agree t) (r : LevelRequest) :
    (r.resolve t).1 = (r.resolve s).1 := by
  cases r with
  | absent => rw [resolve_absent, resolve_absent, h.resolve]
  | _ => rfl

end LevelRequest

namespace Style

/-- The style that a truth value stands for. -/
def ofFlag (b : Bool) : Style :=
  if b then friendly else technical

/-- Resolving the style needs the defaults. -/
def Consults (friendly? : Option Bool) (s : Settings) : Prop :=
  friendly? = none ∧ s.Undecided (.named setting)

theorem resolve_none (s : Settings) :
    resolve none s =
      ((s.flag setting (some false) false).1.map fun b => ofFlag (b.getD false),
        (s.flag setting (some false) false).2) := by
  unfold resolve
  dsimp only
  rcases s.flag setting (some false) false with ⟨f | b, t⟩ <;> rfl

theorem resolve_leaves (friendly? : Option Bool) (s : Settings) :
    s.Leaves (Consults friendly? s) (resolve friendly? s).2 := by
  cases friendly? with
  | none =>
    have h := s.resolve_leaves (.named setting)
    rw [resolve_none, Settings.flag_eq]
    exact ⟨fun hc => h.1 hc.2, fun hn => h.2 fun hu => hn ⟨rfl, hu⟩⟩
  | some b => exact ⟨fun hc => (nomatch hc.1), fun _ => rfl⟩

theorem resolve_fst_congr {s t : Settings} (h : s.Agree t) (friendly? : Option Bool) :
    (resolve friendly? t).1 = (resolve friendly? s).1 := by
  cases friendly? with
  | none => rw [resolve_none, resolve_none, Settings.flag_eq, Settings.flag_eq, h.resolve]
  | some b => rfl

end Style

namespace SetupRequest

/-- Resolving the request needs the defaults: the level does, or the style does and the level is
found. -/
def Consults (r : SetupRequest) (s : Settings) : Prop :=
  r.level.Consults s ∨
    (∃ level, (r.level.resolve s).1 = .ok level) ∧ Style.Consults r.friendly s

/-- The level and the style are both what they are in the settings before. -/
theorem resolve_fst (r : SetupRequest) (s : Settings) :
    (r.resolve s).1 =
      (r.level.resolve s).1 >>= fun level => (Style.resolve r.friendly s).1.map fun style =>
        (level, style) := by
  have hagree := (r.level.resolve_leaves s).agree
  unfold resolve
  rcases hl : r.level.resolve s with ⟨f | level, t⟩
  · rfl
  · rw [hl] at hagree
    have hstyle := Style.resolve_fst_congr hagree r.friendly
    rw [← hstyle]
    dsimp only
    rcases Style.resolve r.friendly t with ⟨f | style, u⟩ <;> rfl

theorem resolve_leaves (r : SetupRequest) (s : Settings) :
    s.Leaves (r.Consults s) (r.resolve s).2 := by
  have hlevel := r.level.resolve_leaves s
  unfold resolve Consults
  rcases hl : r.level.resolve s with ⟨f | level, t⟩
  · rw [hl] at hlevel
    simpa using hlevel
  · rw [hl] at hlevel
    have hstyle := Style.resolve_leaves r.friendly t
    have hboth := hlevel.trans hstyle
    simp only [Style.Consults, hlevel.agree.undecided] at hboth ⊢
    rcases hs : Style.resolve r.friendly t with ⟨f | style, u⟩ <;> rw [hs] at hboth <;>
      simpa using hboth

theorem resolve_fst_congr {s t : Settings} (h : s.Agree t) (r : SetupRequest) :
    (r.resolve t).1 = (r.resolve s).1 := by
  rw [resolve_fst, resolve_fst, r.level.resolve_fst_congr h, Style.resolve_fst_congr h]

end SetupRequest

end Depict

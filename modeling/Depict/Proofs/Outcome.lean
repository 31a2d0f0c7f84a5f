import Mathlib.Data.List.Forall2
import Mathlib.Tactic.Common

/-!
# Outcomes of chained computations

A chain of computations that can fail has a result exactly when each part has one.
-/
namespace Depict
variable {ε α β : Type}

theorem map_eq_ok {x : Except ε α} {f : α → β} {b : β} :
    x.map f = .ok b ↔ ∃ a, x = .ok a ∧ f a = b := by
  constructor
  · intro h
    cases x with
    | error e => cases h
    | ok a => exact ⟨a, rfl, Except.ok.inj h⟩
  · rintro ⟨a, rfl, rfl⟩
    rfl

theorem bind_eq_ok {x : Except ε α} {f : α → Except ε β} {b : β} :
    (x >>= f) = .ok b ↔ ∃ a, x = .ok a ∧ f a = .ok b := by
  constructor
  · intro h
    cases x with
    | error e => cases h
    | ok a => exact ⟨a, rfl, h⟩
  · rintro ⟨a, rfl, h⟩
    exact h

theorem map_eq_error {x : Except ε α} {f : α → β} {e : ε} : x.map f = .error e ↔ x = .error e := by
  cases x with
  | error e' => exact ⟨fun h => congrArg Except.error (Except.error.inj h), fun h => congrArg _ h⟩
  | ok a => exact ⟨fun h => (nomatch h), fun h => (nomatch h)⟩

theorem bind_eq_error {x : Except ε α} {f : α → Except ε β} {e : ε} :
    (x >>= f) = .error e ↔ x = .error e ∨ ∃ a, x = .ok a ∧ f a = .error e := by
  cases x with
  | error e' =>
    refine ⟨fun h => .inl (congrArg Except.error (Except.error.inj h)), ?_⟩
    rintro (h | ⟨a, h, -⟩)
    · exact congrArg Except.error (Except.error.inj h)
    · cases h
  | ok a =>
    refine ⟨fun h => .inr ⟨a, rfl, h⟩, ?_⟩
    rintro (h | ⟨b, h, hb⟩)
    · cases h
    · rw [Except.ok.inj h]
      exact hb

theorem mapM_cons_eq_ok {f : α → Except ε β} {a : α} {l : List α} {r : List β} :
    (a :: l).mapM f = .ok r ↔ ∃ b s, f a = .ok b ∧ l.mapM f = .ok s ∧ r = b :: s := by
  rw [List.mapM_cons, bind_eq_ok]
  constructor
  · rintro ⟨b, hb, h⟩
    obtain ⟨s, hs, h⟩ := bind_eq_ok.mp h
    exact ⟨b, s, hb, hs, (Except.ok.inj h).symm⟩
  · rintro ⟨b, s, hb, hs, rfl⟩
    exact ⟨b, hb, bind_eq_ok.mpr ⟨s, hs, rfl⟩⟩

/-- A row has results only if each of its members has one. -/
theorem exists_eq_ok_of_mapM {f : α → Except ε β} {l : List α} :
    ∀ {r : List β}, l.mapM f = .ok r → ∀ a ∈ l, ∃ b, f a = .ok b := by
  induction l with
  | nil => simp
  | cons a l ih =>
    intro r h
    obtain ⟨b, s, hb, hs, -⟩ := mapM_cons_eq_ok.mp h
    simpa using ⟨⟨b, hb⟩, ih hs⟩

/-- A row fails only with a fault of one of its members. -/
theorem exists_eq_error_of_mapM {f : α → Except ε β} {l : List α} {e : ε}
    (h : l.mapM f = .error e) : ∃ a ∈ l, f a = .error e := by
  induction l with
  | nil => cases h
  | cons a l ih =>
    rw [List.mapM_cons] at h
    rcases bind_eq_error.mp h with h | ⟨b, -, h⟩
    · exact ⟨a, List.mem_cons_self, h⟩
    · rcases bind_eq_error.mp h with h | ⟨s, -, h⟩
      · obtain ⟨c, hc, hfault⟩ := ih h
        exact ⟨c, List.mem_cons_of_mem a hc, hfault⟩
      · cases h

/-- The results of a row are those of its members, one by one. -/
theorem forall₂_of_mapM {f : α → Except ε β} {l : List α} :
    ∀ {r : List β}, l.mapM f = .ok r → List.Forall₂ (fun a b => f a = .ok b) l r := by
  induction l with
  | nil =>
    intro r h
    rw [← Except.ok.inj h]
    exact .nil
  | cons a l ih =>
    intro r h
    obtain ⟨b, s, hb, hs, rfl⟩ := mapM_cons_eq_ok.mp h
    exact .cons hb (ih hs)

/-- Two rows whose members have the same outcomes one by one have the same outcome. -/
theorem mapM_congr_forall₂ {f g : α → Except ε β} {l l' : List α}
    (h : List.Forall₂ (fun a a' => f a = g a') l l') : l.mapM f = l'.mapM g := by
  induction h with
  | nil => rfl
  | cons ha h ih => rw [List.mapM_cons, List.mapM_cons, ha, ih]

theorem mapM_congr {f g : α → Except ε β} {l : List α} (h : ∀ a ∈ l, f a = g a) :
    l.mapM f = l.mapM g :=
  mapM_congr_forall₂ (List.forall₂_same.mpr h)

end Depict

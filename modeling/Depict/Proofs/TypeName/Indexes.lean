import Depict.Proofs.Logging.Views
import Depict.Proofs.TypeName.Collapse
import Depict.Session
import Mathlib.Data.List.Infix

/-!
# Indexes in names

A name holds an index if a digit directly follows a dollar sign in it. Collapsing takes all digits
behind a dollar sign, so what then follows is none, and no digit comes to stand behind a dollar sign
that it did not follow before. Hence collapsing once is enough, a name stays as it is exactly if it
holds no index, and the report on a name that was changed is one on indexes.
-/
namespace Depict.TypeName

/-- A digit directly follows a dollar sign in the name. -/
def HoldsIndex (name : List Char) : Prop :=
  ∃ d, d.isDigit = true ∧ ['$', d] <:+: name

variable {s : List Char} {c : Char}

theorem not_holdsIndex_nil : ¬ HoldsIndex [] := by
  rintro ⟨d, -, h⟩
  simpa using h.length_le

theorem holdsIndex_cons_iff :
    HoldsIndex (c :: s) ↔ (c = '$' ∧ ∃ d ∈ s.head?, d.isDigit = true) ∨ HoldsIndex s := by
  have hprefix : ∀ d, ['$', d] <+: c :: s ↔ c = '$' ∧ d ∈ s.head? := by
    intro d
    rw [List.cons_prefix_cons, List.singleton_prefix_iff_head?_eq_some, eq_comm, Option.mem_def]
  simp only [HoldsIndex, List.infix_cons_iff, hprefix]
  constructor
  · rintro ⟨d, hd, ⟨hc, hs⟩ | hs⟩
    · exact .inl ⟨hc, d, hs, hd⟩
    · exact .inr ⟨d, hd, hs⟩
  · rintro (⟨hc, d, hs, hd⟩ | ⟨d, hd, hs⟩)
    · exact ⟨d, hd, .inl ⟨hc, hs⟩⟩
    · exact ⟨d, hd, .inr hs⟩

/-- What is left behind a dollar sign starts with no digit. -/
theorem head?_collapseFrom_true (s : List Char) :
    ∀ d ∈ (collapseFrom true s).head?, d.isDigit = false := by
  induction s with
  | nil => simp [collapseFrom]
  | cons c s ih =>
    intro d hd
    rw [collapseFrom] at hd
    split at hd
    · exact ih d hd
    · next hc =>
      obtain rfl : c = d := Option.some.inj hd
      simpa using hc

theorem not_holdsIndex_collapseFrom (skipping : Bool) (s : List Char) :
    ¬ HoldsIndex (collapseFrom skipping s) := by
  induction s generalizing skipping with
  | nil => exact not_holdsIndex_nil
  | cons c s ih =>
    rw [collapseFrom]
    split
    · exact ih true
    · rw [holdsIndex_cons_iff]
      rintro (⟨rfl, d, hd, hdigit⟩ | h)
      · have hno := head?_collapseFrom_true s d hd
        rw [hdigit] at hno
        contradiction
      · exact ih _ h

/-- Collapsing changes a name only at an index, or at digits in front if these count as one. -/
theorem collapseFrom_of_not_holdsIndex {skipping : Bool} (h : ¬ HoldsIndex s)
    (hhead : skipping = true → ∀ d ∈ s.head?, d.isDigit = false) : collapseFrom skipping s = s := by
  induction s generalizing skipping with
  | nil => cases skipping <;> rfl
  | cons c s ih =>
    obtain ⟨hc, hs⟩ := not_or.mp (mt holdsIndex_cons_iff.mpr h)
    have hkeep : ¬ (skipping && c.isDigit) = true := by
      intro hskip
      obtain ⟨hskipping, hdigit⟩ := Bool.and_eq_true_iff.mp hskip
      have hno := hhead hskipping c rfl
      rw [hdigit] at hno
      contradiction
    rw [collapseFrom, if_neg hkeep, ih hs]
    intro hdollar d hd
    by_contra hdigit
    exact hc ⟨by simpa using hdollar, d, hd, by simpa using hdigit⟩

theorem collapse_of_not_holdsIndex (h : ¬ HoldsIndex s) : collapse s = s :=
  collapseFrom_of_not_holdsIndex h fun hskipping => absurd hskipping Bool.false_ne_true

theorem not_holdsIndex_collapse (s : List Char) : ¬ HoldsIndex (collapse s) :=
  not_holdsIndex_collapseFrom false s

theorem collapse_eq_self_iff : collapse s = s ↔ ¬ HoldsIndex s := by
  constructor
  · intro h
    rw [← h]
    exact not_holdsIndex_collapse s
  · exact collapse_of_not_holdsIndex

instance (s : List Char) : Decidable (HoldsIndex s) :=
  decidable_of_iff (collapse s ≠ s) (by rw [ne_eq, collapse_eq_self_iff, not_not])

theorem collapse_collapse (s : List Char) : collapse (collapse s) = collapse s :=
  collapse_of_not_holdsIndex (not_holdsIndex_collapse s)

theorem simpleOf_collapse (name : String) :
    simpleOf (String.ofList (collapse name.toList)) = simpleOf name := by
  rw [simpleOf, String.toList_ofList, simpleChars, collapse_collapse]
  rfl

end Depict.TypeName

namespace Depict.Logging

theorem hosts_foldl_deliver (r : Record) (hs : List Handler) (out : Output) :
    (hs.foldl (fun out h => out.append (deliver r h)) out).hosts =
      out.hosts ++ (hs.filterMap Handler.host?).map (·, r) := by
  induction hs generalizing out with
  | nil => simp
  | cons h hs ih =>
    rw [List.foldl_cons, ih]
    cases h with
    | host n => simp [Output.append, deliver]
    | console c =>
      have hnone : (deliver r (.console c)).hosts = [] := by
        rw [deliver]
        split <;> rfl
      rw [List.filterMap_cons_none (Handler.host?_console c), Output.append, hnone,
        List.append_nil]

/-- A record reaches each handler of the host once, if its level lets it through. -/
theorem hosts_emit (l : Logging) (r : Record) :
    (l.emit r).hosts =
      if 0 < r.rank ∧ l.level.rank ≤ r.rank then l.hostNumbers.map (·, r) else [] := by
  by_cases hr : 0 < r.rank ∧ l.level.rank ≤ r.rank
  · have hemit := hosts_foldl_deliver r l.handlers .none
    simpa [emit, hr, hostNumbers, Output.none] using hemit
  · have hlow : ¬ (decide (0 < r.rank) && decide (l.level.rank ≤ r.rank)) = true := by
      simpa using hr
    rw [emit, if_neg hlow, if_neg hr]
    rfl

end Depict.Logging

namespace Depict.Session
open Depict.TypeName

/-- The record at the level for debugging that tells which name an index was dropped from. -/
def indexRecord (name : String) : Record :=
  ⟨nameLogger, 10, "Collapsed anonymous type index in " ++ name, 0, 0⟩

theorem nameRecord?_eq (name : String) :
    nameRecord? name = if HoldsIndex name.toList then some (indexRecord name) else none := by
  unfold nameRecord? collapseNote?
  by_cases h : HoldsIndex name.toList
  · rw [if_neg (mt collapse_eq_self_iff.mp (not_not.mpr h)), if_pos h]
    rfl
  · rw [if_pos (collapse_of_not_holdsIndex h), if_neg h]
    rfl

/-- Collapsing a name once leaves no index in it, so that doing it again changes nothing and the
simple name of the collapsed name is that of the name. Asking for a simple name changes no session.
It logs one record with the whole name if that holds an index, which each handler of the host gets
once where the level lets it through, and nothing otherwise. -/
theorem simpleName_collapses_once (name : String) :
    ¬ HoldsIndex (collapse name.toList) ∧
    collapse (collapse name.toList) = collapse name.toList ∧
    simpleOf (String.ofList (collapse name.toList)) = simpleOf name ∧
    nameRecord? name = (if HoldsIndex name.toList then some (indexRecord name) else none) ∧
    ∀ s : Session, s.step (.simpleName name) = ⟨.ok (.name (simpleOf name)), s,
        if HoldsIndex name.toList then s.logging.emit (indexRecord name) else .none⟩ ∧
      (s.step (.simpleName name)).output.hosts =
        if HoldsIndex name.toList ∧ s.logging.level.rank ≤ 10 then
          s.logging.hostNumbers.map (·, indexRecord name)
        else [] := by
  refine ⟨not_holdsIndex_collapse _, collapse_collapse _, simpleOf_collapse name,
    nameRecord?_eq name, fun s => ?_⟩
  have hstep : s.step (.simpleName name) = ⟨.ok (.name (simpleOf name)), s,
      if HoldsIndex name.toList then s.logging.emit (indexRecord name) else .none⟩ := by
    rw [step, nameRecord?_eq]
    split <;> rfl
  refine ⟨hstep, ?_⟩
  rw [hstep]
  by_cases h : HoldsIndex name.toList
  · have hrank : 0 < (indexRecord name).rank := (by decide : (0 : Int) < 10)
    simp only [h, hrank, if_true, true_and, Logging.hosts_emit]
    rfl
  · simp only [h, if_false, false_and]
    rfl

end Depict.Session

import Depict.Proofs.Description.Calls

/-!
# Labels

A description is made from a label that is not missing, by describing a value or by constructing it.
No step takes the label away or puts another in its place, so every description has one in every heap
that events lead to.
-/
namespace Depict

/-- Whether an event is none that puts a description into the heap ready-made: they come from
describing a value or from a label alone. -/
def Event.isProper : Event → Bool
  | act (.make (.description _)) => false
  | _ => true

/-- The heaps that events lead to. -/
inductive Heap.Reachable : Heap → Prop
  | empty : Reachable .empty
  | step {h : Heap} {e : Event} (hr : Reachable h) (he : e.isProper = true) :
      Reachable (h.handle e).2

/-- A description has a label. -/
def Cell.IsLabelled (c : Cell) : Prop :=
  ∀ d, c = .description d → d.label ≠ .null

/-- Every description has a label. -/
def Heap.Labelled (h : Heap) : Prop :=
  ∀ a, (h.cell a).IsLabelled

theorem Cell.isLabelled_of_ne {c : Cell} (hc : ∀ d, c ≠ .description d) : c.IsLabelled :=
  fun d hd => absurd hd (hc d)

theorem Cell.isLabelled_description {d : Description} (hd : d.label ≠ .null) :
    (Cell.description d).IsLabelled := by
  rintro d' hd'
  rwa [← Cell.description.inj hd']

namespace Description
variable {d d' : Description}

theorem label_of_construct {label : Value} (h : construct label = .ok d) : d.label ≠ .null := by
  obtain ⟨label', hlabel, rfl⟩ := map_eq_ok.mp h
  unfold Value.required at hlabel
  split at hlabel
  · cases hlabel
  · next hn =>
    rw [← Except.ok.inj hlabel]
    rintro rfl
    exact hn rfl

/-- A call keeps the label. -/
theorem label_of_applied {s : Action} {a : Address} (h : s.applied a d = .ok d') :
    d'.label = d.label := by
  cases s with
  | add target name value =>
    rw [Action.applied] at h
    split at h
    · obtain ⟨k, -, rfl⟩ := add_eq_ok h
      rfl
    · rw [← Except.ok.inj h]
  | addValue target value =>
    rw [Action.applied] at h
    split at h
    · obtain ⟨k, -, rfl⟩ := record_eq_ok h
      rfl
    · rw [← Except.ok.inj h]
  | omitNulls target =>
    rw [Action.applied] at h
    split at h
    · rw [← Except.ok.inj h]
      rfl
    · rw [← Except.ok.inj h]
  | _ => rw [← Except.ok.inj h]

end Description

namespace Heap
variable {h h' : Heap} {a b : Address} {c : Cell} {d : Description} {e : Event}

namespace Labelled

theorem set (hh : h.Labelled) (hc : c.IsLabelled) : (h.set b c).Labelled := by
  intro a
  rcases h.cell_set_cases a b c with he | ⟨-, he⟩
  · rw [he]
    exact hh a
  · rwa [he]

theorem alloc (hh : h.Labelled) (hc : c.IsLabelled) : (h.alloc c).1.Labelled := by
  intro a
  rcases h.cell_alloc_cases a c with he | he
  · rw [he]
    exact hh a
  · rwa [he]

theorem perform {s : Action} (hh : h.Labelled) (he : (Event.act s).isProper = true)
    (hs : h.perform s = .ok (h', b)) : h'.Labelled := by
  cases change_perform hs with
  | made c _ hc =>
    refine hh.alloc ?_
    rcases hc with rfl | ⟨label, d, hd, rfl⟩
    · refine Cell.isLabelled_of_ne ?_
      rintro d rfl
      cases he
    · exact Cell.isLabelled_description (Description.label_of_construct hd)
  | @called target d d' hd htarget _ =>
    refine hh.set (Cell.isLabelled_description ?_)
    rw [Description.label_of_applied htarget]
    exact hh target d hd
  | replaced _ _ _ hc' => exact hh.set (Cell.isLabelled_of_ne hc')
  | kept _ => exact hh

theorem handle (hh : h.Labelled) (he : e.isProper = true) : (h.handle e).2.Labelled := by
  cases e with
  | ask target q => exact hh
  | act s =>
    cases hs : h.perform s with
    | error f => rwa [handle_act_of_error hs]
    | ok r =>
      rw [handle_act_of_ok hs]
      exact hh.perform he hs

end Labelled

theorem Reachable.labelled (hr : h.Reachable) : h.Labelled := by
  induction hr with
  | empty =>
    intro a
    exact Cell.isLabelled_of_ne (by simp [cell, Heap.empty, stranger])
  | step _ he ih => exact ih.handle he

end Heap

end Depict

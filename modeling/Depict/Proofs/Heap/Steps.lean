import Depict.Heap.Action
import Depict.Proofs.Outcome

/-!
# What a step does to a heap

A step makes one more object, changes a description by a call on it, replaces an object of another
kind, or keeps the heap. A description is changed by the steps on its own address alone: the two that
add an entry and the one that sets its flag.
-/
namespace Depict

/-- What a step makes of the description `d` at the address `a`. -/
def Action.applied (a : Address) (d : Description) : Action → Except Fault Description
  | add target name value => if target = a then d.add name value else .ok d
  | addValue target value => if target = a then d.addValue value else .ok d
  | omitNulls target => if target = a then .ok d.omitNulls else .ok d
  | _ => .ok d

/-- The step keeps every description of the heap. -/
def Action.Spares (s : Action) (h : Heap) : Prop :=
  ∀ a d, h.cell a = .description d → s.applied a d = .ok d

namespace Heap
variable {h h' : Heap} {a b : Address} {d : Description} {s : Action}

theorem lt_length_of_description (hd : h.cell a = .description d) : a < h.cells.length := by
  by_contra hlt
  rw [cell, List.getD_eq_getElem?_getD, List.getElem?_eq_none (Nat.not_lt.mp hlt)] at hd
  cases hd

/-- What is put somewhere is found there or, outside the heap, nowhere. -/
theorem cell_set_cases (h : Heap) (a b : Address) (c : Cell) :
    (h.set b c).cell a = h.cell a ∨ a = b ∧ (h.set b c).cell a = c := by
  by_cases hab : b = a
  · subst hab
    by_cases hb : b < h.cells.length
    · exact .inr ⟨rfl, cell_set_self c hb⟩
    · rw [Heap.set, List.set_eq_of_length_le (Nat.not_lt.mp hb)]
      exact .inl rfl
  · exact .inl (cell_set_of_ne c hab)

theorem cell_alloc_cases (h : Heap) (a : Address) (c : Cell) :
    (h.alloc c).1.cell a = h.cell a ∨ (h.alloc c).1.cell a = c := by
  rcases Nat.lt_trichotomy a h.cells.length with hlt | rfl | hgt
  · exact .inl (cell_alloc_of_lt hlt)
  · exact .inr (cell_alloc_self h c)
  · have hlength : (h.alloc c).1.cells.length ≤ a := by
      simpa [alloc] using Nat.succ_le_of_lt hgt
    refine .inl ?_
    rw [cell, cell, List.getD_eq_getElem?_getD, List.getD_eq_getElem?_getD,
      List.getElem?_eq_none hlength, List.getElem?_eq_none (Nat.le_of_lt hgt)]

/-- What a step that succeeds can do to a heap. A description that it makes is either given as it is
or constructed from a label. -/
inductive Change (h : Heap) (s : Action) : Heap → Prop
  | made (c : Cell) (hs : s.Spares h)
      (hc : s = .make c ∨ ∃ label d, Description.construct label = .ok d ∧ c = .description d) :
      Change h s (h.alloc c).1
  | called {b : Address} {d d' : Description} (hd : h.cell b = .description d)
      (hb : s.applied b d = .ok d') (hs : ∀ a e, a ≠ b → s.applied a e = .ok e) :
      Change h s (h.set b (.description d'))
  | replaced {b : Address} {c c' : Cell} (hs : s.Spares h) (hb : h.cell b = c)
      (hc : ∀ d, c ≠ .description d) (hc' : ∀ d, c' ≠ .description d) : Change h s (h.set b c')
  | kept (hs : s.Spares h) : Change h s h

theorem change_make {c : Cell} (hs : h.make c = .ok (h', b)) : h.Change (.make c) h' := by
  unfold make at hs
  split at hs
  · cases hs
  · obtain ⟨rfl, -⟩ := Prod.mk.inj (Except.ok.inj hs)
    exact .made c (fun _ _ _ => rfl) (.inl rfl)

theorem change_construct {label : Value} (hsp : s.Spares h) (hd : Description.construct label = .ok d)
    (hs : h.alloc (.description d) = (h', b)) : h.Change s h' := by
  obtain ⟨rfl, -⟩ := Prod.mk.inj hs
  exact .made _ hsp (.inr ⟨label, d, hd, rfl⟩)

theorem change_updateDescription {f : Description → Except Fault Description}
    (hf : ∀ a e, s.applied a e = if b = a then f e else .ok e)
    (hs : h.updateDescription b f = .ok h') : h.Change s h' := by
  have hother : ∀ a e, a ≠ b → s.applied a e = .ok e :=
    fun a e hab => (hf a e).trans (if_neg (Ne.symm hab))
  unfold updateDescription at hs
  split at hs
  · next d hd =>
    obtain ⟨d', hd', rfl⟩ := map_eq_ok.mp hs
    exact .called hd (by rw [hf, if_pos rfl, hd']) hother
  · next hnone =>
    rw [← Except.ok.inj hs]
    refine .kept fun a e he => hother a e ?_
    rintro rfl
    exact hnone e he

theorem change_append (hsp : s.Spares h) (item : Value) : h.Change s (h.append b item) := by
  unfold append
  split
  · next items hb => exact .replaced hsp hb (by simp) (by simp)
  · exact .kept hsp

theorem change_updateObject (hsp : s.Spares h) (f : Instance → Instance) :
    h.Change s (h.updateObject b f) := by
  unfold updateObject
  split
  · next o hb => exact .replaced hsp hb (by simp) (by simp)
  · exact .kept hsp

theorem change_dropLast (hsp : s.Spares h) (hs : h.dropLast b = .ok h') : h.Change s h' := by
  unfold dropLast at hs
  split at hs
  · cases hs
  · next items _ hb =>
    rw [← Except.ok.inj hs]
    exact .replaced hsp hb (by simp) (by simp)
  · rw [← Except.ok.inj hs]
    exact .kept hsp

theorem change_put {key value : Value} (hsp : s.Spares h) (hs : h.put b key value = .ok h') :
    h.Change s h' := by
  unfold put at hs
  split at hs
  · next pairs hb =>
    split at hs
    · cases hs
    · obtain ⟨pairs', -, rfl⟩ := map_eq_ok.mp hs
      exact .replaced hsp hb (by simp) (by simp)
  · rw [← Except.ok.inj hs]
    exact .kept hsp

/-- Every step that succeeds makes one of these changes. -/
theorem change_perform (hs : h.perform s = .ok (h', b)) : h.Change s h' := by
  cases s with
  | make c => exact change_make hs
  | describe subject =>
    obtain ⟨d, hd, hs⟩ := map_eq_ok.mp hs
    obtain ⟨subject', -, hd⟩ := bind_eq_ok.mp hd
    exact change_construct (fun _ _ _ => rfl) hd hs
  | construct label =>
    obtain ⟨d, hd, hs⟩ := map_eq_ok.mp hs
    exact change_construct (fun _ _ _ => rfl) hd hs
  | add target name value =>
    obtain ⟨k, hk, hs⟩ := map_eq_ok.mp hs
    obtain ⟨rfl, -⟩ := Prod.mk.inj hs
    exact change_updateDescription (fun _ _ => rfl) hk
  | addValue target value =>
    obtain ⟨k, hk, hs⟩ := map_eq_ok.mp hs
    obtain ⟨rfl, -⟩ := Prod.mk.inj hs
    exact change_updateDescription (fun _ _ => rfl) hk
  | omitNulls target =>
    obtain ⟨k, hk, hs⟩ := map_eq_ok.mp hs
    obtain ⟨rfl, -⟩ := Prod.mk.inj hs
    exact change_updateDescription (fun _ _ => rfl) hk
  | append target item =>
    obtain ⟨rfl, -⟩ := Prod.mk.inj (Except.ok.inj hs)
    exact change_append (fun _ _ _ => rfl) item
  | dropLast target =>
    obtain ⟨k, hk, hs⟩ := map_eq_ok.mp hs
    obtain ⟨rfl, -⟩ := Prod.mk.inj hs
    exact change_dropLast (fun _ _ _ => rfl) hk
  | put target key value =>
    obtain ⟨k, hk, hs⟩ := map_eq_ok.mp hs
    obtain ⟨rfl, -⟩ := Prod.mk.inj hs
    exact change_put (fun _ _ _ => rfl) hk
  | setText target text =>
    obtain ⟨rfl, -⟩ := Prod.mk.inj (Except.ok.inj hs)
    exact change_updateObject (fun _ _ _ => rfl) _
  | setRaises target r =>
    obtain ⟨rfl, -⟩ := Prod.mk.inj (Except.ok.inj hs)
    exact change_updateObject (fun _ _ _ => rfl) _

/-- A step that succeeds leaves at the address what it makes of the description there. -/
theorem cell_perform (hd : h.cell a = .description d) (hs : h.perform s = .ok (h', b)) :
    ∃ d', s.applied a d = .ok d' ∧ h'.cell a = .description d' := by
  have ha := lt_length_of_description hd
  cases change_perform hs with
  | made c hsp hc => exact ⟨d, hsp a d hd, (cell_alloc_of_lt ha).trans hd⟩
  | @called target e e' he htarget hother =>
    by_cases hab : a = target
    · subst hab
      obtain rfl : d = e := Cell.description.inj (hd.symm.trans he)
      exact ⟨e', htarget, cell_set_self _ ha⟩
    · exact ⟨d, hother a d hab, (cell_set_of_ne _ (Ne.symm hab)).trans hd⟩
  | @replaced target c c' hsp hb hc hc' =>
    have hab : target ≠ a := by
      rintro rfl
      exact hc d (hb.symm.trans hd)
    exact ⟨d, hsp a d hd, (cell_set_of_ne _ hab).trans hd⟩
  | kept hsp => exact ⟨d, hsp a d hd, hd⟩

end Heap

end Depict

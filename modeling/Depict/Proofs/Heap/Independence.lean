import Depict.Proofs.Description.Calls

/-!
# Steps that do not see a description

What a description holds is read only when it is written. A step that is no call on it gives the same
result whatever it holds, leaves it as it is, and so can be exchanged with every call on it.
-/
namespace Depict

namespace Heap
variable {h h' : Heap} {a b : Address} {d d' : Description}

/-- The second heap has the objects of the first, but descriptions may hold something else. -/
structure Alike (h h' : Heap) : Prop where
  length : h'.cells.length = h.cells.length
  cell : ∀ b, h'.cell b = h.cell b ∨
    ∃ d d', h.cell b = .description d ∧ h'.cell b = .description d'

theorem alike_set (d' : Description) (hd : h.cell a = .description d) :
    h.Alike (h.set a (.description d')) where
  length := by simp [set]
  cell b := by
    by_cases hab : a = b
    · subst hab
      exact .inr ⟨d, d', hd, cell_set_self _ (lt_length_of_description hd)⟩
    · exact .inl (cell_set_of_ne _ hab)

namespace Alike

theorem addresses (hh : h.Alike h') : h'.addresses = h.addresses := by
  rw [Heap.addresses, Heap.addresses, hh.length]

theorem standsFor (hh : h.Alike h') (v : Value) : h'.standsFor v = h.standsFor v := by
  cases v with
  | atom x => rfl
  | ref b =>
    unfold Heap.standsFor
    dsimp only
    rcases hh.cell b with hb | ⟨e, e', hb, hb'⟩
    · rw [hb]
    · rw [hb, hb']

theorem labelOf (hh : h.Alike h') (v : Value) : h'.labelOf v = h.labelOf v := by
  cases v with
  | atom x => rfl
  | ref b =>
    unfold Heap.labelOf Heap.characters? Heap.typeOf
    dsimp only
    rcases hh.cell b with hb | ⟨e, e', hb, hb'⟩
    · rw [hb]
    · rw [hb, hb']
      rfl

/-- Descriptions are the same key only as themselves, whatever they hold. -/
theorem sameKeyFrom (hh : h.Alike h') (live : List Address) :
    h'.sameKeyFrom live = h.sameKeyFrom live := by
  -- a tuple is taken off the row before its items are compared, so the row gets shorter
  induction hn : live.length using Nat.strongRecOn generalizing live with
  | ind n ih =>
    funext v w
    rw [Heap.sameKeyFrom, Heap.sameKeyFrom, hh.standsFor, hh.standsFor]
    split
    · rfl
    · next x y _ _ =>
      split
      · rfl
      · split
        · next hx =>
          have hlt : (live.erase x).length < n := by
            have := List.length_erase_of_mem hx
            have := List.length_pos_of_mem hx
            omega
          rw [ih _ hlt _ rfl]
          -- only tuples are looked into, and a description is none whatever it holds
          rcases hh.cell x with hcx | ⟨e, e', hcx, hcx'⟩
          · rcases hh.cell y with hcy | ⟨e, e', hcy, hcy'⟩
            · rw [hcx, hcy]
            · rw [hcx, hcy, hcy']
              split <;> simp_all
          · rw [hcx, hcx']
        · rfl
    · rfl

theorem sameKey (hh : h.Alike h') : h'.sameKey = h.sameKey := by
  funext v w
  rw [Heap.sameKey, Heap.sameKey, hh.addresses, hh.sameKeyFrom]

theorem putPair (hh : h.Alike h') (key value : Value) (pairs : List (Value × Value)) :
    h'.putPair key value pairs = h.putPair key value pairs := by
  induction pairs with
  | nil => rfl
  | cons p ps ih => rw [Heap.putPair, Heap.putPair, hh.sameKey, ih]

theorem keyObstacleFrom (hh : h.Alike h') (live : List Address) :
    h'.keyObstacleFrom live = h.keyObstacleFrom live := by
  induction hn : live.length using Nat.strongRecOn generalizing live with
  | ind n ih =>
    funext v
    cases v with
    | atom x =>
      unfold Heap.keyObstacleFrom
      cases x with
      | sized n => cases n <;> rfl
      | _ => rfl
    | ref b =>
      rw [Heap.keyObstacleFrom, Heap.keyObstacleFrom]
      rcases hh.cell b with hb | ⟨e, e', hb, hb'⟩
      · rw [hb]
        split
        · rfl
        · rfl
        · rfl
        · next items _ =>
          split
          · next hmem =>
            have hlt : (live.erase b).length < n := by
              have := List.length_erase_of_mem hmem
              have := List.length_pos_of_mem hmem
              omega
            rw [ih _ hlt _ rfl]
          · rfl
        · rfl
      · rw [hb, hb']

theorem keyObstacle? (hh : h.Alike h') : h'.keyObstacle? = h.keyObstacle? := by
  funext v
  rw [Heap.keyObstacle?, Heap.keyObstacle?, hh.addresses, hh.keyObstacleFrom]

end Alike

theorem set_comm (c c' : Cell) (hab : a ≠ b) : (h.set a c).set b c' = (h.set b c').set a c := by
  rw [set, set, set, set, List.set_comm _ _ hab]

theorem set_comm_of_other {c : Cell} (c' c'' : Cell) (hd : h.cell a = .description d)
    (hb : h.cell b = c) (hc : ∀ e, c ≠ .description e) :
    (h.set a c').set b c'' = (h.set b c'').set a c' := by
  refine set_comm _ _ ?_
  rintro rfl
  exact hc d (hb.symm.trans hd)

theorem alloc_set (c c' : Cell) (ha : a < h.cells.length) :
    (h.set a c).alloc c' = ((h.alloc c').1.set a c, (h.alloc c').2) := by
  simp [alloc, set, List.set_append_left _ _ ha]

theorem updateDescription_set (f : Description → Except Fault Description) (c : Cell) (hab : a ≠ b) :
    (h.set a c).updateDescription b f = (h.updateDescription b f).map (·.set a c) := by
  rw [updateDescription, updateDescription, cell_set_of_ne c hab]
  split
  · next e _ =>
    cases f e with
    | error g => rfl
    | ok e' => exact congrArg Except.ok (set_comm _ _ hab)
  · rfl

theorem append_set (d' : Description) (item : Value) (hd : h.cell a = .description d) :
    (h.set a (.description d')).append b item = (h.append b item).set a (.description d') := by
  unfold append
  rcases (alike_set d' hd).cell b with hb | ⟨e, e', hb, hb'⟩
  · rw [hb]
    split
    · next items hc => exact set_comm_of_other _ _ hd hc (by simp)
    · rfl
  · rw [hb, hb']

theorem updateObject_set (d' : Description) (f : Instance → Instance)
    (hd : h.cell a = .description d) :
    (h.set a (.description d')).updateObject b f = (h.updateObject b f).set a (.description d') := by
  unfold updateObject
  rcases (alike_set d' hd).cell b with hb | ⟨e, e', hb, hb'⟩
  · rw [hb]
    split
    · next o hc => exact set_comm_of_other _ _ hd hc (by simp)
    · rfl
  · rw [hb, hb']

theorem dropLast_set (d' : Description) (hd : h.cell a = .description d) :
    (h.set a (.description d')).dropLast b =
      (h.dropLast b).map (·.set a (.description d')) := by
  unfold dropLast
  rcases (alike_set d' hd).cell b with hb | ⟨e, e', hb, hb'⟩
  · rw [hb]
    split
    · rfl
    · next items _ hc => exact congrArg Except.ok (set_comm_of_other _ _ hd hc (by simp))
    · rfl
  · rw [hb, hb']
    rfl

theorem put_set (d' : Description) (key value : Value) (hd : h.cell a = .description d) :
    (h.set a (.description d')).put b key value =
      (h.put b key value).map (·.set a (.description d')) := by
  have hh := alike_set d' hd
  unfold put
  rcases hh.cell b with hb | ⟨e, e', hb, hb'⟩
  · rw [hb, hh.keyObstacle?]
    split
    · next pairs hc =>
      split
      · rfl
      · rw [hh.putPair]
        cases h.putPair key value pairs with
        | error f => rfl
        | ok pairs' => exact congrArg Except.ok (set_comm_of_other _ _ hd hc (by simp))
    · rfl
  · rw [hb, hb']
    rfl

theorem make_set (d' : Description) (c : Cell) (hd : h.cell a = .description d) :
    (h.set a (.description d')).make c =
      (h.make c).map fun r => (r.1.set a (.description d'), r.2) := by
  rw [make, make, (alike_set d' hd).keyObstacle?]
  split
  · rfl
  · rw [alloc_set _ _ (lt_length_of_description hd)]
    rfl

theorem describe_set (d' : Description) (subject : Value) (hd : h.cell a = .description d) :
    (h.set a (.description d')).describe subject = h.describe subject := by
  rw [describe, describe]
  simp only [(alike_set d' hd).labelOf]

/-- What a step makes of a heap whose description at an address holds something else: the same, and
the description stays what it is. -/
theorem perform_set_description {s : Action} (d' : Description) (hd : h.cell a = .description d)
    (hs : (Event.act s).isOn a = false) :
    (h.set a (.description d')).perform s =
      (h.perform s).map fun r => (r.1.set a (.description d'), r.2) := by
  have halloc := fun c => alloc_set (.description d') c (lt_length_of_description hd)
  cases s with
  | make c => exact make_set d' c hd
  | describe subject =>
    rw [perform, perform, describe_set d' subject hd]
    cases h.describe subject with
    | error f => rfl
    | ok e => exact congrArg Except.ok (halloc _)
  | construct label =>
    rw [perform, perform]
    cases Description.construct label with
    | error f => rfl
    | ok e => exact congrArg Except.ok (halloc _)
  | add target name value =>
    have hne : a ≠ target := Ne.symm (by simpa [Event.isOn] using hs)
    rw [perform, perform, updateDescription_set _ _ hne]
    cases h.updateDescription target (·.add name value) <;> rfl
  | addValue target value =>
    have hne : a ≠ target := Ne.symm (by simpa [Event.isOn] using hs)
    rw [perform, perform, updateDescription_set _ _ hne]
    cases h.updateDescription target (·.addValue value) <;> rfl
  | omitNulls target =>
    have hne : a ≠ target := Ne.symm (by simpa [Event.isOn] using hs)
    rw [perform, perform, updateDescription_set _ _ hne]
    cases h.updateDescription target fun d => .ok d.omitNulls <;> rfl
  | append target item =>
    rw [perform, perform, append_set d' item hd]
    rfl
  | dropLast target =>
    rw [perform, perform, dropLast_set d' hd]
    cases h.dropLast target <;> rfl
  | put target key value =>
    rw [perform, perform, put_set d' key value hd]
    cases h.put target key value <;> rfl
  | setText target text =>
    rw [perform, perform, updateObject_set d' _ hd]
    rfl
  | setRaises target r =>
    rw [perform, perform, updateObject_set d' _ hd]
    rfl

end Heap

end Depict

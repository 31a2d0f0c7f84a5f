import Depict.Proofs.Description.Faults
import Depict.Proofs.Show.Reach

/-!
# What showing a value comes to

Showing a value is said here as rules, without anything that counts how deep it has gone: a value
comes to an outcome if finitely many rules lead to it. A container notices that it is being shown
already, and nothing else does, so that what shows itself without a container in between comes to
nothing at all. There is at most one outcome, and a fault in it is always that of an atom or an object
somewhere inside.
-/
namespace Depict
open Relation

/-- What is looked at when an object is shown inside another value. -/
def Cell.inspected : Cell → List Value
  | description d => [d.label]
  | c => c.parts

/-- Whether the object says its text itself; another one has its inner form as its text. -/
def Cell.hasOwnText : Cell → Bool
  | object _ => true
  | member _ => true
  | description _ => true
  | _ => false

namespace Member

/-- What is looked at for the text of a member. -/
def shown (m : Member) : List Value :=
  if m.lowered || m.family = .plain then [] else [m.value]

/-- The text of a member whose value shows inside others as `shown` shows it. -/
def displayWith (shown : Value → Except Fault String) (m : Member) : Except Fault String :=
  if m.lowered then .ok (String.ofList (Text.lower m.name.toList))
  else match m.family, m.value with
    | .plain, _ => .ok (m.type ++ "." ++ m.name)
    | _, .atom a => a.display
    | _, v => shown v

end Member

namespace Heap

theorem displayMember_eq (h : Heap) (m : Member) : h.displayMember m = m.displayWith h.inspect :=
  rfl

/-- The inner form of a value comes to an outcome, where `fresh` are the containers that are not being
shown yet. An object is shown from the outcomes of what is looked at in it. -/
inductive InspectsTo (h : Heap) : List Address → Value → Except Fault String → Prop
  | atom (fresh : List Address) (x : Atom) : InspectsTo h fresh (.atom x) x.inspect
  | repeated {fresh : List Address} {a : Address} (hc : (h.cell a).isContainer = true)
      (ha : a ∉ fresh) : InspectsTo h fresh (.ref a) (.ok (h.cell a).ellipsis)
  | container {fresh : List Address} {a : Address} (shown : Value → Except Fault String)
      (hc : (h.cell a).isContainer = true) (ha : a ∈ fresh)
      (hparts : ∀ v ∈ (h.cell a).inspected, InspectsTo h (fresh.erase a) v (shown v)) :
      InspectsTo h fresh (.ref a) ((h.cell a).inspectWith shown)
  | other {fresh : List Address} {a : Address} (shown : Value → Except Fault String)
      (hc : (h.cell a).isContainer = false)
      (hparts : ∀ v ∈ (h.cell a).inspected, InspectsTo h fresh v (shown v)) :
      InspectsTo h fresh (.ref a) ((h.cell a).inspectWith shown)

/-- The own text of a value comes to an outcome. A description is written from the texts of what it
shows; what is no description, member or plain object is shown as inside other values. -/
inductive DisplaysTo (h : Heap) : Value → Except Fault String → Prop
  | atom (x : Atom) : DisplaysTo h (.atom x) x.display
  | description {a : Address} {d : Description} (shown : Value → Except Fault String)
      (hd : h.cell a = .description d) (hparts : ∀ v ∈ d.shown, DisplaysTo h v (shown v)) :
      DisplaysTo h (.ref a) (d.writtenWith shown)
  | object {a : Address} {o : Instance} (ho : h.cell a = .object o) :
      DisplaysTo h (.ref a) o.display
  | member {a : Address} {m : Member} (shown : Value → Except Fault String)
      (hm : h.cell a = .member m)
      (hparts : ∀ v ∈ m.shown, InspectsTo h h.addresses v (shown v)) :
      DisplaysTo h (.ref a) (m.displayWith shown)
  | other {a : Address} {x : Except Fault String} (hc : (h.cell a).hasOwnText = false)
      (hx : InspectsTo h h.addresses (.ref a) x) : DisplaysTo h (.ref a) x

/-- The value fails with the fault by itself: an atom in a way in which it shows, or an object that
gives no text. -/
inductive FailsAlone (h : Heap) : Value → Fault → Prop
  | displayed {x : Atom} {f : Fault} (hx : x.display = .error f) : FailsAlone h (.atom x) f
  | inspected {x : Atom} {f : Fault} (hx : x.inspect = .error f) : FailsAlone h (.atom x) f
  | running {x : Atom} {f : Fault} (hx : x.runningText = .error f) : FailsAlone h (.atom x) f
  | primitive {x : Atom} {f : Fault} (hx : x.primitiveText = .error f) : FailsAlone h (.atom x) f
  | object {a : Address} {o : Instance} {f : Fault} (ho : h.cell a = .object o)
      (hx : o.display = .error f) : FailsAlone h (.ref a) f

/-- The first value is an object that holds the second. -/
def HasPart (h : Heap) (v w : Value) : Prop :=
  ∃ a, v = .ref a ∧ w ∈ (h.cell a).parts

end Heap

variable {shown shown' : Value → Except Fault String} {f : Fault}

namespace Cell
variable {c : Cell} {v : Value}

theorem mem_parts_of_mem_inspected (hv : v ∈ c.inspected) : v ∈ c.parts := by
  cases c with
  | description d =>
    rw [List.mem_singleton.mp hv]
    exact List.mem_cons_self
  | _ => exact hv

theorem inspectWith_congr_inspected (h : ∀ v ∈ c.inspected, shown v = shown' v) :
    c.inspectWith shown = c.inspectWith shown' := by
  cases c with
  | description d => rw [inspectWith, inspectWith, h d.label List.mem_cons_self]
  | _ => exact inspectWith_congr h

/-- An object fails inside another value only if something that is looked at in it fails. -/
theorem exists_of_inspectWith_eq_error (h : c.inspectWith shown = .error f) :
    ∃ v ∈ c.inspected, shown v = .error f := by
  have hitems : ∀ items : List Value, itemsWith shown items = .error f →
      ∃ v ∈ items, shown v = .error f :=
    fun items h => exists_eq_error_of_mapM (map_eq_error.mp h)
  cases c with
  | list items => exact hitems items (map_eq_error.mp h)
  | tuple items =>
    match items, h with
    | [], h => cases h
    | [item], h => exact ⟨item, List.mem_cons_self, map_eq_error.mp h⟩
    | item :: next :: items, h => exact hitems (item :: next :: items) (map_eq_error.mp h)
  | dict pairs =>
    obtain ⟨p, hp, hpair⟩ := exists_eq_error_of_mapM (map_eq_error.mp h)
    have hmem : ∀ v ∈ [p.1, p.2], v ∈ (dict pairs).inspected :=
      fun v hv => List.mem_flatMap.mpr ⟨p, hp, hv⟩
    rcases bind_eq_error.mp hpair with hkey | ⟨key, -, hpair⟩
    · exact ⟨p.1, hmem _ (by simp), hkey⟩
    · rcases bind_eq_error.mp hpair with hvalue | ⟨value, -, hpair⟩
      · exact ⟨p.2, hmem _ (by simp), hvalue⟩
      · cases hpair
  | set items =>
    match items, h with
    | item :: items, h => exact hitems (item :: items) (map_eq_error.mp h)
  | object o => cases h
  | type t of => cases h
  | member m => exact ⟨m.value, List.mem_cons_self, map_eq_error.mp h⟩
  | description d => exact ⟨d.label, List.mem_cons_self, map_eq_error.mp h⟩

end Cell

namespace Member
variable {m : Member}

theorem displayWith_congr (h : ∀ v ∈ m.shown, shown v = shown' v) :
    m.displayWith shown = m.displayWith shown' := by
  obtain ⟨family, type, name, value, lowered⟩ := m
  cases lowered
  · cases family
    · rfl
    all_goals
      have hvalue : shown value = shown' value := h value List.mem_cons_self
      cases value with
      | atom a => rfl
      | ref a => exact hvalue
  · rfl

/-- A member has no text only if its value has none, by itself or inside other values. -/
theorem exists_of_displayWith_eq_error (h : m.displayWith shown = .error f) :
    (∃ x, m.value = .atom x ∧ x.display = .error f) ∨ ∃ v ∈ m.shown, shown v = .error f := by
  obtain ⟨family, type, name, value, lowered⟩ := m
  cases lowered
  · cases family
    · cases h
    all_goals
      cases value with
      | atom x => exact .inl ⟨x, rfl, h⟩
      | ref a => exact .inr ⟨.ref a, List.mem_cons_self, h⟩
  · cases h

theorem mem_shown {v : Value} (hv : v ∈ m.shown) : v = m.value := by
  unfold shown at hv
  split at hv
  · cases hv
  · exact List.mem_singleton.mp hv

end Member

theorem FirstFault.mem {xs : List (Except Fault String)} (h : FirstFault xs f) :
    .error f ∈ xs := by
  induction h with
  | here f rest => exact List.mem_cons_self
  | later s _ ih => exact List.mem_cons_of_mem _ ih

/-- The value is an atom that cannot be written in a description, in running text or in its canonical
form. -/
def Value.FailsWritten (v : Value) (f : Fault) : Prop :=
  ∃ x, v = .atom x ∧ (x.runningText = .error f ∨ x.primitiveText = .error f)

namespace Value
variable {v : Value}

theorem failsWritten_of_runningWith (h : v.runningWith shown = .error f) :
    v.FailsWritten f ∨ shown v = .error f := by
  cases v with
  | atom x => exact .inl ⟨x, rfl, .inl h⟩
  | ref a => exact .inr h

theorem failsWritten_of_writtenWith (h : v.writtenWith shown = .error f) :
    v.FailsWritten f ∨ shown v = .error f := by
  unfold writtenWith at h
  split at h
  · cases h
  · split at h
    · cases v with
      | atom x => exact .inl ⟨x, rfl, .inr h⟩
      | ref a => exact .inr h
    · exact .inr h

end Value

/-- A description has no text only if something that is looked at in it has none. -/
theorem Description.exists_of_writtenWith_eq_error {d : Description}
    (h : d.writtenWith shown = .error f) :
    ∃ v ∈ d.shown, v.FailsWritten f ∨ shown v = .error f := by
  have hlook : .error f ∈ d.looks shown := ((d.looksAt shown f).mp h).mem
  rcases List.mem_append.mp hlook with hlook | hlook
  · obtain ⟨e, he, hlook⟩ := List.mem_flatMap.mp hlook
    have hlook : e.name.runningWith shown = .error f ∨ e.value.writtenWith shown = .error f := by
      simpa [Entry.looks, eq_comm] using hlook
    rcases hlook with hname | hvalue
    · exact ⟨e.name, name_mem_shown he, Value.failsWritten_of_runningWith hname⟩
    · exact ⟨e.value, value_mem_shown he, Value.failsWritten_of_writtenWith hvalue⟩
  · have hlabel : d.label.runningWith shown = .error f := (List.mem_singleton.mp hlook).symm
    exact ⟨d.label, List.mem_cons_self, Value.failsWritten_of_runningWith hlabel⟩

theorem wholeText_ne_endless (n : Int) : wholeText n ≠ .error .endless := by
  unfold wholeText
  split <;> simp

theorem OwnText.over_ne_endless {base : Except Fault String} (h : base ≠ .error .endless)
    (t : OwnText) : t.over base ≠ .error .endless := by
  cases t with
  | inherited => exact h
  | given s => simp [OwnText.over]
  | mistyped type => simp [OwnText.over]

namespace Atom

theorem display_ne_endless (x : Atom) : x.display ≠ .error .endless := by
  cases x with
  | int n => exact wholeText_ne_endless n
  | derivedInt n t => exact OwnText.over_ne_endless (wholeText_ne_endless n) _
  | derivedFloat x t => exact OwnText.over_ne_endless (by simp) _
  | derivedText s t => exact OwnText.over_ne_endless (by simp) _
  | _ => simp [display]

theorem inspect_ne_endless (x : Atom) : x.inspect ≠ .error .endless := by
  cases x with
  | int n => exact wholeText_ne_endless n
  | derivedInt n t => exact wholeText_ne_endless n
  | _ => simp [inspect, display]

theorem runningText_ne_endless (x : Atom) : x.runningText ≠ .error .endless := by
  unfold runningText
  split
  · simp
  · exact x.display_ne_endless

theorem primitiveText_ne_endless (x : Atom) : x.primitiveText ≠ .error .endless := by
  unfold primitiveText
  split
  · simp
  · simp
  · split <;> simp
  · simp
  · exact x.display_ne_endless

end Atom

theorem Instance.display_ne_endless (o : Instance) : o.display ≠ .error .endless := by
  unfold display
  split
  · simp
  · exact OwnText.over_ne_endless (by simp) _

theorem Heap.FailsAlone.ne_endless {h : Heap} {v : Value} (hf : h.FailsAlone v f) :
    f ≠ .endless := by
  rintro rfl
  cases hf with
  | displayed hx => exact Atom.display_ne_endless _ hx
  | inspected hx => exact Atom.inspect_ne_endless _ hx
  | running hx => exact Atom.runningText_ne_endless _ hx
  | primitive hx => exact Atom.primitiveText_ne_endless _ hx
  | object _ hx => exact Instance.display_ne_endless _ hx

namespace Heap
variable {h : Heap} {fresh : List Address} {v : Value} {x y : Except Fault String}

theorem InspectsTo.unique (hx : h.InspectsTo fresh v x) (hy : h.InspectsTo fresh v y) : x = y := by
  induction hx generalizing y with
  | atom fresh a =>
    cases hy
    rfl
  | repeated hc ha =>
    cases hy with
    | repeated => rfl
    | container _ _ ha' => exact absurd ha' ha
    | other _ hc' => exact absurd hc (by simp [hc'])
  | container shown hc ha _ ih =>
    cases hy with
    | repeated _ ha' => exact absurd ha ha'
    | container shown' _ _ hparts =>
      exact Cell.inspectWith_congr_inspected fun v hv => ih v hv (hparts v hv)
    | other _ hc' => exact absurd hc (by simp [hc'])
  | other shown hc _ ih =>
    cases hy with
    | repeated hc' => exact absurd hc' (by simp [hc])
    | container _ hc' => exact absurd hc' (by simp [hc])
    | other shown' _ hparts =>
      exact Cell.inspectWith_congr_inspected fun v hv => ih v hv (hparts v hv)

theorem DisplaysTo.unique (hx : h.DisplaysTo v x) (hy : h.DisplaysTo v y) : x = y := by
  induction hx generalizing y with
  | atom a =>
    cases hy
    rfl
  | @description a d shown hd _ ih =>
    cases hy with
    | @description _ d' shown' hd' hparts =>
      obtain rfl : d = d' := Cell.description.inj (hd.symm.trans hd')
      exact Description.writtenWith_congr fun v hv => ih v hv (hparts v hv)
    | object ho => cases hd.symm.trans ho
    | member _ hm => cases hd.symm.trans hm
    | other hc => simp [hd, Cell.hasOwnText] at hc
  | @object a o ho =>
    cases hy with
    | description _ hd => cases ho.symm.trans hd
    | @object _ o' ho' => rw [Cell.object.inj (ho.symm.trans ho')]
    | member _ hm => cases ho.symm.trans hm
    | other hc => simp [ho, Cell.hasOwnText] at hc
  | @member a m shown hm hparts =>
    cases hy with
    | description _ hd => cases hm.symm.trans hd
    | object ho => cases hm.symm.trans ho
    | @member _ m' shown' hm' hparts' =>
      obtain rfl : m = m' := Cell.member.inj (hm.symm.trans hm')
      exact Member.displayWith_congr fun v hv => (hparts v hv).unique (hparts' v hv)
    | other hc => simp [hm, Cell.hasOwnText] at hc
  | other hc hx =>
    cases hy with
    | description _ hd => simp [hd, Cell.hasOwnText] at hc
    | object ho => simp [ho, Cell.hasOwnText] at hc
    | member _ hm => simp [hm, Cell.hasOwnText] at hc
    | other _ hy => exact hx.unique hy

/-- The value is, or holds at any depth, one that fails with the fault by itself. -/
def FailsInside (h : Heap) (v : Value) (f : Fault) : Prop :=
  ∃ w, ReflTransGen h.HasPart v w ∧ h.FailsAlone w f

theorem FailsInside.of_part {a : Address} (hv : v ∈ (h.cell a).parts) (hf : h.FailsInside v f) :
    h.FailsInside (.ref a) f := by
  obtain ⟨w, hw, hf⟩ := hf
  exact ⟨w, .head ⟨a, rfl, hv⟩ hw, hf⟩

theorem FailsAlone.inside (hf : h.FailsAlone v f) : h.FailsInside v f :=
  ⟨v, .refl, hf⟩

theorem InspectsTo.failsInside (hx : h.InspectsTo fresh v x) (hf : x = .error f) :
    h.FailsInside v f := by
  have hparts : ∀ {a : Address} {shown : Value → Except Fault String},
      (∀ v ∈ (h.cell a).inspected, shown v = .error f → h.FailsInside v f) →
      (h.cell a).inspectWith shown = .error f → h.FailsInside (.ref a) f := by
    intro a shown ih hf
    obtain ⟨v, hv, hvf⟩ := Cell.exists_of_inspectWith_eq_error hf
    exact (ih v hv hvf).of_part (Cell.mem_parts_of_mem_inspected hv)
  induction hx with
  | atom fresh a => exact (FailsAlone.inspected hf).inside
  | repeated => cases hf
  | container shown _ _ _ ih => exact hparts ih hf
  | other shown _ _ ih => exact hparts ih hf

/-- A value fails only with what an atom or an object in it fails with by itself. -/
theorem DisplaysTo.failsInside (hx : h.DisplaysTo v x) (hf : x = .error f) :
    h.FailsInside v f := by
  induction hx with
  | atom a => exact (FailsAlone.displayed hf).inside
  | @description a d shown hd _ ih =>
    obtain ⟨v, hv, hvf⟩ := Description.exists_of_writtenWith_eq_error hf
    apply FailsInside.of_part (mem_parts_of_mem_shown hd hv)
    rcases hvf with ⟨x, rfl, hrunning | hprimitive⟩ | hvf
    · exact (FailsAlone.running hrunning).inside
    · exact (FailsAlone.primitive hprimitive).inside
    · exact ih v hv hvf
  | object ho => exact (FailsAlone.object ho hf).inside
  | @member a m shown hm hparts =>
    have hvalue : m.value ∈ (h.cell a).parts := by
      rw [hm]
      exact List.mem_cons_self
    apply FailsInside.of_part hvalue
    rcases Member.exists_of_displayWith_eq_error hf with ⟨x, hx, hxf⟩ | ⟨v, hv, hvf⟩
    · rw [hx]
      exact (FailsAlone.displayed hxf).inside
    · rw [← Member.mem_shown hv]
      exact (hparts v hv).failsInside hvf
  | other _ hx => exact hx.failsInside hf

end Heap

end Depict

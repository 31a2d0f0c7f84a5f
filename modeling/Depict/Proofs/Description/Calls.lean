import Depict.Proofs.Heap.Steps
import Depict.Show.Written

/-!
# Calls on descriptions

Between the steps that change a heap, descriptions are asked for their texts and entries. A
description remembers its label, the entries whose adding succeeded, in order and as they were
recorded, and whether it was ever told to leave out missing values. Nothing else of its past matters.
-/
namespace Depict

/-- What a description can be asked. -/
inductive Question
  | written
  | display
  | inspect
  | entries
  | label

/-- A step on a heap, or a question to the description at an address. -/
inductive Event
  | act (s : Action)
  | ask (target : Address) (q : Question)

/-- What an event answers. -/
inductive Answer
  | object (a : Address)
  | text (s : String)
  | entries (es : List Entry)
  | label (v : Value)

/-- The entry that an event is to add to the description at an address. -/
def Event.addition? (a : Address) : Event → Option Entry
  | act (.add target name value) => if target = a then some ⟨name, value⟩ else none
  | act (.addValue target value) => if target = a then some ⟨.null, value⟩ else none
  | _ => none

/-- Whether an event tells the description at an address to leave out missing values. -/
def Event.omitsNulls (a : Address) : Event → Bool
  | act (.omitNulls target) => target == a
  | _ => false

/-- Whether an event is a call on the description at an address. -/
def Event.isOn (a : Address) : Event → Bool
  | act (.add target _ _) => target == a
  | act (.addValue target _) => target == a
  | act (.omitNulls target) => target == a
  | act _ => false
  | ask target _ => target == a

/-- What an event leaves of the description `d` at an address. -/
def Event.changed (a : Address) (d : Description) : Event → Description
  | act s =>
    match s.applied a d with
    | .ok d' => d'
    | .error _ => d
  | ask _ _ => d

namespace Heap

/-- The answer to a question. A description is its own text as it is written. -/
def answer (h : Heap) (a : Address) : Question → Except Fault Answer
  | .written => (h.display (.ref a)).map .text
  | .display => (h.display (.ref a)).map .text
  | .inspect => (h.inspect (.ref a)).map .text
  | .entries =>
    match h.cell a with
    | .description d => .ok (.entries d.entries)
    | _ => .ok (.entries [])
  | .label =>
    match h.cell a with
    | .description d => .ok (.label d.label)
    | _ => .ok (.label .null)

/-- What an event answers, and the heap that it leaves. -/
def handle (h : Heap) : Event → Except Fault Answer × Heap
  | .act s =>
    match h.perform s with
    | .ok (h', a) => (.ok (.object a), h')
    | .error f => (.error f, h)
  | .ask a q => (h.answer a q, h)

/-- The heap after events in order, whether they succeed or fail. -/
def follow (h : Heap) (es : List Event) : Heap :=
  es.foldl (fun h e => (h.handle e).2) h

/-- The entries that events add to the description at an address: those whose adding succeeds. -/
def added (h : Heap) (a : Address) : List Event → List Entry
  | [] => []
  | e :: es =>
    match e.addition? a, (h.handle e).1 with
    | some entry, .ok _ => entry :: (h.handle e).2.added a es
    | _, _ => (h.handle e).2.added a es

end Heap

namespace Event
variable {a : Address} {e : Event}

theorem addition?_of_not_isOn (he : e.isOn a = false) : e.addition? a = none := by
  cases e with
  | ask target q => rfl
  | act s =>
    cases s with
    | add target name value => exact if_neg (by simpa [isOn] using he)
    | addValue target value => exact if_neg (by simpa [isOn] using he)
    | _ => rfl

theorem omitsNulls_of_not_isOn (he : e.isOn a = false) : e.omitsNulls a = false := by
  cases e with
  | ask target q => rfl
  | act s =>
    cases s with
    | omitNulls target => exact he
    | _ => rfl

/-- A step that is no call on a description makes the same of it. -/
theorem applied_of_not_isOn {s : Action} (he : (act s).isOn a = false) (d : Description) :
    s.applied a d = .ok d := by
  cases s with
  | add target name value => exact if_neg (by simpa [isOn] using he)
  | addValue target value => exact if_neg (by simpa [isOn] using he)
  | omitNulls target => exact if_neg (by simpa [isOn] using he)
  | _ => rfl

end Event

/-- An entry as a description keeps it. -/
def Entry.recorded (e : Entry) : Except Fault Entry :=
  e.value.recorded.map fun kept => ⟨e.name, kept⟩

namespace Description

theorem record_eq_ok {d d' : Description} {name value : Value} (h : d.record name value = .ok d') :
    ∃ k, (Entry.mk name value).recorded = .ok k ∧ d' = d.push k := by
  obtain ⟨kept, hk, rfl⟩ := map_eq_ok.mp h
  exact ⟨⟨name, kept⟩, map_eq_ok.mpr ⟨kept, hk, rfl⟩, rfl⟩

theorem add_eq_ok {d d' : Description} {name value : Value} (h : d.add name value = .ok d') :
    ∃ k, (Entry.mk name value).recorded = .ok k ∧ d' = d.push k := by
  obtain ⟨name', hname, hr⟩ := bind_eq_ok.mp h
  unfold Value.required at hname
  split at hname
  · cases hname
  · rw [← Except.ok.inj hname] at hr
    exact record_eq_ok hr

end Description

namespace Heap
variable {h : Heap} {a : Address} {d : Description}

theorem handle_act_of_ok {s : Action} {h' : Heap} {b : Address} (hs : h.perform s = .ok (h', b)) :
    h.handle (.act s) = (.ok (.object b), h') := by
  rw [handle, hs]

theorem handle_act_of_error {s : Action} {f : Fault} (hs : h.perform s = .error f) :
    h.handle (.act s) = (.error f, h) := by
  rw [handle, hs]

theorem perform_omitNulls (hd : h.cell a = .description d) :
    h.perform (.omitNulls a) = .ok (h.set a (.description d.omitNulls), a) := by
  rw [perform, updateDescription, hd]
  rfl

/-- What one event does to a description: it adds the entry that it is to add if it succeeds, it
sets the flag, or it keeps the description as it is. -/
theorem cell_handle (e : Event) (hd : h.cell a = .description d) :
    (∃ entry k answer, e.addition? a = some entry ∧ (h.handle e).1 = .ok answer ∧
        entry.recorded = .ok k ∧ e.omitsNulls a = false ∧
        (h.handle e).2.cell a = .description (d.push k)) ∨
      (e.addition? a = none ∧ e.omitsNulls a = true ∧
        (h.handle e).2.cell a = .description d.omitNulls) ∨
      ((e.addition? a = none ∨ ∃ f, (h.handle e).1 = .error f) ∧ e.omitsNulls a = false ∧
        (h.handle e).2.cell a = .description d) := by
  cases e with
  | ask target q => exact .inr (.inr ⟨.inl rfl, rfl, hd⟩)
  | act s =>
    cases hp : h.perform s with
    | error f =>
      rw [handle_act_of_error hp]
      refine .inr (.inr ⟨.inr ⟨f, rfl⟩, ?_, hd⟩)
      -- the flag is set without fail, so this step is another one
      by_contra hflag
      cases s with
      | omitNulls target =>
        have ht : target = a := by simpa [Event.omitsNulls] using hflag
        rw [ht, perform_omitNulls hd] at hp
        cases hp
      | _ => exact hflag rfl
    | ok r =>
      obtain ⟨h', b⟩ := r
      rw [handle_act_of_ok hp]
      obtain ⟨d', hd', hcell⟩ := cell_perform hd hp
      by_cases hon : (Event.act s).isOn a = true
      · cases s with
        | add target name value =>
          have ht : target = a := by simpa [Event.isOn] using hon
          rw [Action.applied, if_pos ht] at hd'
          obtain ⟨k, hk, rfl⟩ := Description.add_eq_ok hd'
          exact .inl ⟨_, k, _, if_pos ht, rfl, hk, rfl, hcell⟩
        | addValue target value =>
          have ht : target = a := by simpa [Event.isOn] using hon
          rw [Action.applied, if_pos ht] at hd'
          obtain ⟨k, hk, rfl⟩ := Description.record_eq_ok hd'
          exact .inl ⟨_, k, _, if_pos ht, rfl, hk, rfl, hcell⟩
        | omitNulls target =>
          have ht : target = a := by simpa [Event.isOn] using hon
          rw [Action.applied, if_pos ht] at hd'
          rw [← Except.ok.inj hd'] at hcell
          exact .inr (.inl ⟨rfl, hon, hcell⟩)
        | _ => cases hon
      · have hoff : (Event.act s).isOn a = false := by simpa using hon
        rw [Event.applied_of_not_isOn hoff] at hd'
        rw [← Except.ok.inj hd'] at hcell
        exact .inr (.inr ⟨.inl (Event.addition?_of_not_isOn hoff),
          Event.omitsNulls_of_not_isOn hoff, hcell⟩)

/-- What a run of events leaves of a description: its label, and the entries and the flag of before
with those of the run. -/
theorem cell_follow (es : List Event) (hd : h.cell a = .description d) :
    ∃ kept, (h.added a es).mapM Entry.recorded = .ok kept ∧
      (h.follow es).cell a =
        .description ⟨d.label, d.entries ++ kept, d.omitsNulls || es.any (·.omitsNulls a)⟩ := by
  induction es generalizing h d with
  | nil => exact ⟨[], rfl, by simpa [follow] using hd⟩
  | cons e es ih =>
    rcases cell_handle e hd with
      ⟨entry, k, answer, hadd, hok, hk, hflag, hcell⟩ | ⟨hadd, hflag, hcell⟩ | ⟨hadd, hflag, hcell⟩
    · obtain ⟨kept, hkept, hrest⟩ := ih hcell
      refine ⟨k :: kept, ?_, ?_⟩
      · rw [added, hadd, hok]
        exact mapM_cons_eq_ok.mpr ⟨k, kept, hk, hkept, rfl⟩
      · simpa [follow, Description.push, hflag] using hrest
    · obtain ⟨kept, hkept, hrest⟩ := ih hcell
      refine ⟨kept, ?_, ?_⟩
      · rw [added, hadd]
        exact hkept
      · simpa [follow, Description.omitNulls, hflag] using hrest
    · obtain ⟨kept, hkept, hrest⟩ := ih hcell
      refine ⟨kept, ?_, ?_⟩
      · rcases hadd with hadd | ⟨f, hf⟩
        · rw [added, hadd]
          exact hkept
        · rw [added, hf]
          cases e.addition? a <;> exact hkept
      · simpa [follow, hflag] using hrest

theorem set_cell (hd : h.cell a = .description d) : h.set a (h.cell a) = h := by
  have ha := lt_length_of_description hd
  have hget : h.cell a = h.cells[a] := by simp [cell, ha]
  rw [set, hget, List.set_getElem_self]

theorem set_set (c c' : Cell) : (h.set a c).set a c' = h.set a c' := by
  rw [set, set, set, List.set_set]

/-- A call on a description works on it alone. -/
theorem perform_of_isOn {s : Action} (hd : h.cell a = .description d)
    (hs : (Event.act s).isOn a = true) :
    h.perform s = (s.applied a d).map fun d' => (h.set a (.description d'), a) := by
  have hupdate : ∀ f, (h.updateDescription a f).map (fun h' => (h', a)) =
      (f d).map fun d' => (h.set a (.description d'), a) := by
    intro f
    rw [updateDescription, hd]
    dsimp only
    cases f d <;> rfl
  cases s with
  | add target name value =>
    obtain rfl : target = a := by simpa [Event.isOn] using hs
    rw [perform, hupdate, Action.applied, if_pos rfl]
  | addValue target value =>
    obtain rfl : target = a := by simpa [Event.isOn] using hs
    rw [perform, hupdate, Action.applied, if_pos rfl]
  | omitNulls target =>
    obtain rfl : target = a := by simpa [Event.isOn] using hs
    rw [perform, hupdate, Action.applied, if_pos rfl]
  | _ => cases hs

/-- A call answers with the description that it works on, or leaves the heap as it is. -/
theorem handle_act_of_isOn {s : Action} (hd : h.cell a = .description d)
    (hs : (Event.act s).isOn a = true) :
    h.handle (.act s) =
      match s.applied a d with
      | .ok d' => (.ok (.object a), h.set a (.description d'))
      | .error f => (.error f, h) := by
  have hp := perform_of_isOn hd hs
  cases happ : s.applied a d with
  | error f =>
    rw [happ] at hp
    exact handle_act_of_error hp
  | ok d' =>
    rw [happ] at hp
    exact handle_act_of_ok hp

theorem handle_of_isOn {e : Event} (hd : h.cell a = .description d) (he : e.isOn a = true) :
    (h.handle e).2 = h.set a (.description (e.changed a d)) := by
  have hsame : h = h.set a (.description d) := by rw [← hd, set_cell hd]
  cases e with
  | ask target q => exact hsame
  | act s =>
    rw [handle_act_of_isOn hd he, Event.changed]
    cases s.applied a d with
    | error f => exact hsame
    | ok d' => rfl

theorem cell_handle_of_isOn {e : Event} (hd : h.cell a = .description d) (he : e.isOn a = true) :
    (h.handle e).2.cell a = .description (e.changed a d) := by
  rw [handle_of_isOn hd he, cell_set_self _ (lt_length_of_description hd)]

/-- A call on a description changes no other object. -/
theorem handle_eq_set {e : Event} (hd : h.cell a = .description d) (he : e.isOn a = true) :
    (h.handle e).2 = h.set a ((h.handle e).2.cell a) := by
  rw [cell_handle_of_isOn hd he, handle_of_isOn hd he]

theorem follow_eq_set {es : List Event} (hd : h.cell a = .description d)
    (hes : es.all (·.isOn a) = true) : h.follow es = h.set a ((h.follow es).cell a) := by
  induction es generalizing h d with
  | nil => exact (set_cell hd).symm
  | cons e es ih =>
    obtain ⟨he, hes⟩ := Bool.and_eq_true_iff.mp hes
    have hone := handle_eq_set hd he
    have hrest := ih (cell_handle_of_isOn hd he) hes
    have hstep : h.follow (e :: es) = (h.handle e).2.follow es := rfl
    rw [hstep]
    refine hrest.trans ?_
    rw [hone, set_set]

end Heap

end Depict

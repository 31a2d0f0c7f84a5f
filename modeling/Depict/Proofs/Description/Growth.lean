import Depict.Proofs.Description.Interleaving
import Depict.Proofs.Heap.Labels
import Mathlib.Data.List.Forall2

/-!
# Descriptions only grow

A description keeps its label, and its entries stay the first ones: each call to add that succeeds
puts one more behind them. A call that fails does so before it changes anything, so the description
is left as it was even by calls that work on it in place.
-/
namespace Depict

namespace Heap
variable {h : Heap} {e : Event}

theorem handle_of_error {f : Fault} (hf : (h.handle e).1 = .error f) : (h.handle e).2 = h := by
  cases e with
  | ask target q => rfl
  | act s =>
    cases hs : h.perform s with
    | error g => rw [handle_act_of_error hs]
    | ok r =>
      rw [handle_act_of_ok hs] at hf
      cases hf

end Heap

/-- Work on a description in place: what was done to it before a failure stays done. -/
abbrev InPlace := ExceptT Fault (StateM Description)

namespace InPlace
variable {α : Type}

/-- A computation that may fail but leaves the description alone. -/
def check (x : Except Fault α) : InPlace α :=
  ExceptT.mk (pure x)

/-- Converts the value to what is kept of it, and adds the entry then. -/
def record (name value : Value) : InPlace Unit := do
  let kept ← check value.recorded
  modify (·.push ⟨name, kept⟩)

/-- Looks at the name before anything else. -/
def add (name value : Value) : InPlace Unit := do
  let name ← check (name.required "name")
  record name value

/-- A call on a description, which is asked in the heap of that moment. -/
def call (h : Heap) : Event → InPlace Unit
  | .act (.add _ name value) => add name value
  | .act (.addValue _ value) => record .null value
  | .act (.omitNulls _) => modify (·.omitNulls)
  | .act _ => pure ()
  | .ask target q => check ((h.answer target q).map fun _ => ())

/-- How the work ends, and the description that it leaves. -/
def outcome (x : InPlace α) (d : Description) : Except Fault α × Description :=
  (x.run.run d).run

variable {d : Description}

theorem outcome_record (name value : Value) : (record name value).outcome d =
    match d.record name value with
    | .ok d' => (.ok (), d')
    | .error f => (.error f, d) := by
  unfold Description.record
  cases hk : value.recorded with
  | error f =>
    rw [record, hk]
    rfl
  | ok kept =>
    rw [record, hk]
    rfl

theorem outcome_add (name value : Value) : (add name value).outcome d =
    match d.add name value with
    | .ok d' => (.ok (), d')
    | .error f => (.error f, d) := by
  unfold Description.add
  cases hn : name.required "name" with
  | error f =>
    rw [add, hn]
    rfl
  | ok name' =>
    rw [add, hn]
    exact outcome_record name' value

end InPlace

/-- The same label, and that many more entries behind those that were there. -/
structure Description.GrowsTo (d d' : Description) (n : Nat) : Prop where
  label : d'.label = d.label
  entries : d.entries <+: d'.entries
  length : d'.entries.length = d.entries.length + n

/-- How many entries an event adds to the description at an address: one if it is to add one and
succeeds. -/
def Heap.growth (h : Heap) (a : Address) (e : Event) : Nat :=
  match e.addition? a, (h.handle e).1 with
  | some _, .ok _ => 1
  | _, _ => 0

namespace Heap
variable {h : Heap} {a : Address} {d : Description} {e : Event}

/-- A call that works in place ends like the one that answers with a new heap, and leaves the same
description, also when it fails. -/
theorem outcome_call (hd : h.cell a = .description d) (he : e.isOn a = true) :
    (InPlace.call h e).outcome d = ((h.handle e).1.map fun _ => (), e.changed a d) := by
  cases e with
  | ask target q => rfl
  | act s =>
    have hcall : (InPlace.call h (.act s)).outcome d =
        match s.applied a d with
        | .ok d' => (.ok (), d')
        | .error f => (.error f, d) := by
      cases s with
      | add target name value =>
        rw [InPlace.call, InPlace.outcome_add, Action.applied,
          if_pos (by simpa [Event.isOn] using he)]
      | addValue target value =>
        rw [InPlace.call, InPlace.outcome_record, Action.applied,
          if_pos (by simpa [Event.isOn] using he)]
        rfl
      | omitNulls target =>
        rw [Action.applied, if_pos (by simpa [Event.isOn] using he)]
        rfl
      | _ => cases he
    rw [hcall, handle_act_of_isOn hd he, Event.changed]
    cases s.applied a d <;> rfl

theorem growsTo_handle (e : Event) (hd : h.cell a = .description d) :
    ∃ d', (h.handle e).2.cell a = .description d' ∧ d.GrowsTo d' (h.growth a e) := by
  rcases cell_handle e hd with
    ⟨entry, k, answer, hadd, hok, -, -, hcell⟩ | ⟨hadd, -, hcell⟩ | ⟨hkeep, -, hcell⟩
  · refine ⟨_, hcell, rfl, List.prefix_append _ _, ?_⟩
    simp [growth, hadd, hok, Description.push]
  · refine ⟨_, hcell, rfl, List.prefix_rfl, ?_⟩
    simp [growth, hadd, Description.omitNulls]
  · refine ⟨_, hcell, rfl, List.prefix_rfl, ?_⟩
    rcases hkeep with hadd | ⟨f, hf⟩
    · simp [growth, hadd]
    · simp [growth, hf]

theorem growsTo_follow (es : List Event) (hd : h.cell a = .description d) :
    ∃ d', (h.follow es).cell a = .description d' ∧ d.GrowsTo d' (h.added a es).length := by
  obtain ⟨kept, hkept, hcell⟩ := cell_follow es hd
  refine ⟨_, hcell, rfl, List.prefix_append _ _, ?_⟩
  rw [List.length_append, (Entry.forall₂_keptAs hkept).length_eq]

theorem handle_add (hd : h.cell a = .description d) (name value : Value) :
    (h.handle (.act (.add a name value))).1 =
      if name.isNull then .error (.missingValue (.ofArgument "name" (.text "name")))
      else value.recorded.map fun _ => .object a := by
  rw [handle_act_of_isOn hd (by simp [Event.isOn]), Action.applied, if_pos rfl]
  cases hn : name.isNull with
  | true =>
    have hadd : d.add name value = .error (.missingValue (.ofArgument "name" (.text "name"))) := by
      rw [Description.add, Value.required, hn]
      rfl
    rw [hadd]
    rfl
  | false =>
    have hadd : d.add name value = value.recorded.map fun kept => d.push ⟨name, kept⟩ := by
      rw [Description.add, Value.required, hn]
      rfl
    rw [hadd]
    cases value.recorded <;> rfl

/-- Whatever led to a heap, a description in it has a label, and keeps it through every event and
every run. An event leaves its entries as the first ones and adds one more only if it is a call to
add that succeeds; one that fails leaves the whole heap as it was, even if it works in place. A
missing name is found before the value is looked at. -/
theorem Reachable.growsTo (hr : h.Reachable) (hd : h.cell a = .description d) :
    d.label ≠ .null ∧
    (∀ e, ∃ d', (h.handle e).2.cell a = .description d' ∧ d.GrowsTo d' (h.growth a e) ∧
      (∀ f, (h.handle e).1 = .error f → d' = d ∧ (h.handle e).2 = h) ∧
      (e.isOn a = true → (InPlace.call h e).outcome d = ((h.handle e).1.map fun _ => (), d'))) ∧
    (∀ es, ∃ d', (h.follow es).cell a = .description d' ∧
      d.GrowsTo d' (h.added a es).length) ∧
    ∀ name value, (h.handle (.act (.add a name value))).1 =
      if name.isNull then .error (.missingValue (.ofArgument "name" (.text "name")))
      else value.recorded.map fun _ => .object a := by
  refine ⟨hr.labelled a d hd, fun e => ?_, fun es => growsTo_follow es hd, handle_add hd⟩
  obtain ⟨d', hcell, hgrows⟩ := growsTo_handle e hd
  refine ⟨d', hcell, hgrows, fun f hf => ?_, fun he => ?_⟩
  · have hsame := handle_of_error hf
    rw [hsame, hd] at hcell
    exact ⟨(Cell.description.inj hcell).symm, hsame⟩
  · have hchanged := cell_handle_of_isOn hd he
    rw [hcell] at hchanged
    rw [outcome_call hd he, Cell.description.inj hchanged]

/-- A description under the label `L` with one entry. -/
def counted : Heap :=
  empty.follow [.act (.construct (.text "L")), .act (.add 0 (.text "b") (.atom (.bool true)))]

/-- One day, which is no plain number. -/
def oneDay : Value :=
  .atom (.sized (.timeSpan ⟨1, .day⟩))

theorem growsTo_counted :
    let d : Description := ⟨.text "L", [⟨.text "b", .text "true"⟩], false⟩
    counted.handle (.act (.add 0 (.text "t") oneDay)) =
        (.error (.notNumber "datetime.timedelta"), counted) ∧
      (InPlace.call counted (.act (.add 0 .null oneDay))).outcome d =
        (.error (.missingValue (.ofArgument "name" (.text "name"))), d) := by
  intro d
  have hr : counted.Reachable := .step (.step .empty rfl) rfl
  have hd : counted.cell 0 = .description d := rfl
  obtain ⟨-, hstep, -, hadd⟩ := hr.growsTo hd
  obtain ⟨d₁, -, -, hfail₁, -⟩ := hstep (.act (.add 0 (.text "t") oneDay))
  obtain ⟨d₂, -, -, hfail₂, hplace₂⟩ := hstep (.act (.add 0 .null oneDay))
  have hunwritable := hadd (.text "t") oneDay
  have hmissing := hadd .null oneDay
  refine ⟨Prod.ext hunwritable (hfail₁ _ hunwritable).2, ?_⟩
  rw [hplace₂ rfl, hmissing, (hfail₂ _ hmissing).1]
  rfl

end Heap

end Depict

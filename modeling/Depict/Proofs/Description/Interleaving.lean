import Depict.Proofs.Description.Writing
import Depict.Proofs.Heap.Independence

/-!
# Calls between other steps

The calls on one description and the steps on everything else can be exchanged. What a description
keeps of a value is either the value itself, which shows what it has become, or a text, which no
later step reaches.
-/
namespace Depict

/-- Whether an event is a step, and no question. -/
def Event.isStep : Event → Bool
  | act _ => true
  | ask _ _ => false

/-- An added value is kept as itself, to be shown as it is at the time of writing, or, if it is
primitive, as the text that it has, which every heap shows alike. -/
structure Entry.KeptAs (added kept : Entry) : Prop where
  name : kept.name = added.name
  shared : added.value.isPrimitive = false → kept.value = added.value ∧
    ∀ h : Heap, h.writtenValue kept.value =
      if added.value.isNull then .ok "null" else h.display added.value
  frozen : added.value.isPrimitive = true → ∃ text,
    (∀ h : Heap, h.primitiveText added.value = .ok text) ∧
      ∀ h : Heap, h.writtenValue kept.value = .ok text

theorem Entry.keptAs_of_recorded {added kept : Entry} (hk : added.recorded = .ok kept) :
    added.KeptAs kept := by
  obtain ⟨name, value⟩ := added
  obtain ⟨k, hvalue, rfl⟩ := map_eq_ok.mp hk
  cases value with
  | ref b =>
    rw [← Except.ok.inj hvalue]
    exact ⟨rfl, fun _ => ⟨rfl, fun h => rfl⟩, fun hp => nomatch hp⟩
  | atom x =>
    change (if x.isPrimitive then x.primitiveText.map Value.text else .ok (.atom x)) = .ok k at hvalue
    by_cases hp : x.isPrimitive = true
    · rw [if_pos hp] at hvalue
      obtain ⟨text, ht, rfl⟩ := map_eq_ok.mp hvalue
      exact ⟨rfl, fun hn => absurd hp (by simpa [Value.isPrimitive] using hn),
        fun _ => ⟨text, fun h => ht, fun h => h.display_text text⟩⟩
    · rw [if_neg hp] at hvalue
      rw [← Except.ok.inj hvalue]
      have hshared : ¬ (Value.atom x).isPrimitive = true := hp
      refine ⟨rfl, fun _ => ⟨rfl, fun h => ?_⟩, fun hp' => absurd hp' hp⟩
      rw [Heap.writtenValue, Value.writtenWith, if_neg hshared]

theorem Entry.forall₂_keptAs {es kept : List Entry} (hkept : es.mapM Entry.recorded = .ok kept) :
    List.Forall₂ Entry.KeptAs es kept :=
  (forall₂_of_mapM hkept).imp fun _ _ => Entry.keptAs_of_recorded

namespace Heap
variable {h h' : Heap} {a : Address} {d d' : Description} {e : Event} {es : List Event}

theorem cell_handle_of_not_isOn (hd : h.cell a = .description d) (he : e.isOn a = false) :
    (h.handle e).2.cell a = .description d := by
  rcases cell_handle e hd with ⟨_, _, _, hadd, -⟩ | ⟨-, hflag, -⟩ | ⟨-, -, hcell⟩
  · rw [Event.addition?_of_not_isOn he] at hadd
    cases hadd
  · rw [Event.omitsNulls_of_not_isOn he] at hflag
    cases hflag
  · exact hcell

/-- An event that is no call on a description leaves the same of everything else, whatever the
description holds. -/
theorem handle_set_description (d' : Description) (hd : h.cell a = .description d)
    (he : e.isOn a = false) :
    ((h.set a (.description d')).handle e).2 = (h.handle e).2.set a (.description d') := by
  cases e with
  | ask target q => rfl
  | act s =>
    have hp := perform_set_description d' hd he
    cases hs : h.perform s with
    | error f =>
      rw [hs] at hp
      rw [handle_act_of_error hp, handle_act_of_error hs]
    | ok r =>
      obtain ⟨h', b⟩ := r
      rw [hs] at hp
      rw [handle_act_of_ok hp, handle_act_of_ok hs]

theorem follow_cons (e : Event) (es : List Event) :
    h.follow (e :: es) = (h.handle e).2.follow es :=
  rfl

theorem follow_set_description (d' : Description) (hd : h.cell a = .description d)
    (hes : ∀ e ∈ es, e.isOn a = false) :
    (h.set a (.description d')).follow es = (h.follow es).set a (.description d') := by
  induction es generalizing h with
  | nil => rfl
  | cons e es ih =>
    have he := hes e List.mem_cons_self
    rw [follow_cons, follow_cons, handle_set_description d' hd he]
    exact ih (cell_handle_of_not_isOn hd he) fun e' he' => hes e' (List.mem_cons_of_mem _ he')

/-- A run leaves what its other events leave, and of the description what the calls on it do. -/
theorem follow_eq_set_changed (es : List Event) (hd : h.cell a = .description d) :
    h.follow es = (h.follow (es.filter fun e => !e.isOn a)).set a
      (.description ((es.filter (·.isOn a)).foldl (Event.changed a) d)) := by
  induction es generalizing h d with
  | nil =>
    change h = h.set a (.description d)
    rw [← hd, set_cell hd]
  | cons e es ih =>
    by_cases he : e.isOn a = true
    · -- the other events come first, and leave the description for the call as it was
      have hothers : ∀ e' ∈ es.filter (fun e => !e.isOn a), e'.isOn a = false := by
        intro e' he'
        simpa using (List.mem_filter.mp he').2
      rw [follow_cons, ih (cell_handle_of_isOn hd he), handle_of_isOn hd he,
        follow_set_description _ hd hothers, set_set, List.filter_cons_of_neg (by simp [he]),
        List.filter_cons_of_pos he, List.foldl_cons]
    · have he : e.isOn a = false := by simpa using he
      rw [follow_cons, ih (cell_handle_of_not_isOn hd he), List.filter_cons_of_pos (by simp [he]),
        List.filter_cons_of_neg (by simp [he]), follow_cons]

theorem follow_filter_isStep (h : Heap) (es : List Event) :
    h.follow (es.filter Event.isStep) = h.follow es := by
  induction es generalizing h with
  | nil => rfl
  | cons e es ih =>
    cases e with
    | ask target q => exact ih h
    | act s => exact ih _

/-- Which of the calls on a description succeed depends on the description alone. -/
theorem added_congr (hd : h.cell a = .description d) (hd' : h'.cell a = .description d)
    (hes : ∀ e ∈ es, e.isOn a = true) : h.added a es = h'.added a es := by
  induction es generalizing h h' d with
  | nil => rfl
  | cons e es ih =>
    have he := hes e List.mem_cons_self
    have hrest := ih (cell_handle_of_isOn hd he) (cell_handle_of_isOn hd' he)
      fun e' he' => hes e' (List.mem_cons_of_mem _ he')
    cases e with
    | ask target q => exact hrest
    | act s =>
      rw [added, added, hrest, handle_act_of_isOn hd he, handle_act_of_isOn hd' he]
      cases s.applied a d <;> rfl

theorem added_filter_isOn (es : List Event) (hd : h.cell a = .description d) :
    h.added a (es.filter (·.isOn a)) = h.added a es := by
  induction es generalizing h d with
  | nil => rfl
  | cons e es ih =>
    by_cases he : e.isOn a = true
    · rw [List.filter_cons_of_pos he, added, added, ih (cell_handle_of_isOn hd he)]
    · have he : e.isOn a = false := by simpa using he
      have hd' := cell_handle_of_not_isOn hd he
      have hcalls : ∀ e' ∈ es.filter (·.isOn a), e'.isOn a = true :=
        fun e' he' => (List.mem_filter.mp he').2
      rw [List.filter_cons_of_neg (by simp [he]), added_congr hd hd' hcalls, ih hd', added,
        Event.addition?_of_not_isOn he]

/-- Two runs with the same calls on a description and the same other events, each in order, leave
the same heap, however the two are mixed, and the same calls succeed. The description then holds
each value that was added as itself, or, if it is primitive, as the text that it had; it is written
with every value as the heap shows it in the end. Questions change nothing. -/
theorem follow_interleaved (h : Heap) (a : Address) (d : Description) (es : List Event)
    (hd : h.cell a = .description d) :
    (∀ es' : List Event, es'.filter (·.isOn a) = es.filter (·.isOn a) →
      (es'.filter fun e => !e.isOn a) = (es.filter fun e => !e.isOn a) →
      h.follow es' = h.follow es ∧ h.added a es' = h.added a es) ∧
    (∃ kept, List.Forall₂ Entry.KeptAs (h.added a es) kept ∧
      let d' : Description :=
        ⟨d.label, d.entries ++ kept, d.omitsNulls || es.any (·.omitsNulls a)⟩
      (h.follow es).cell a = .description d' ∧
      ∀ text, (h.follow es).display (.ref a) = .ok text →
        ∃ items label, d'.visible.mapM (h.follow es).writtenEntry = .ok items ∧
          (h.follow es).runningText d.label = .ok label ∧
          text = label ++ "\x7b" ++ joined items ++ "\x7d") ∧
    h.follow (es.filter Event.isStep) = h.follow es := by
  refine ⟨fun es' hcalls hothers => ⟨?_, ?_⟩, ?_, follow_filter_isStep h es⟩
  · rw [follow_eq_set_changed es' hd, follow_eq_set_changed es hd, hcalls, hothers]
  · rw [← added_filter_isOn es' hd, ← added_filter_isOn es hd, hcalls]
  · obtain ⟨kept, hkept, hcell⟩ := cell_follow es hd
    refine ⟨kept, Entry.forall₂_keptAs hkept, hcell, fun text htext => ?_⟩
    obtain ⟨items, label, hitems, hlabel, he⟩ :=
      Description.writtenWith_eq_ok.mp (display_description hcell htext)
    exact ⟨items, label, hitems, hlabel, he.symm⟩

/-- An object with a text of its own, a description under the label `L`, and another under the label
`M` that holds the first. -/
def nested : Heap :=
  ⟨[.object ⟨⟨.absent, "Item"⟩, .given "old", none, none⟩, .description (.empty (.text "L")),
    .description ⟨.text "M", [⟨.text "inner", .ref 1⟩], false⟩]⟩

/-- The object is added to the first description before its text changes. -/
def addedFirst : List Event :=
  [.act (.add 1 (.text "item") (.ref 0)), .ask 2 .written, .act (.setText 0 (.given "new")),
    .act (.addValue 1 (.atom (.sized (.whole true 8 (-7))))), .act (.omitNulls 2)]

/-- The same, but the calls on the first description come last. -/
def changedFirst : List Event :=
  [.ask 2 .written, .act (.setText 0 (.given "new")), .act (.omitNulls 2),
    .act (.add 1 (.text "item") (.ref 0)),
    .act (.addValue 1 (.atom (.sized (.whole true 8 (-7)))))]

theorem display_changedFirst :
    (nested.follow changedFirst).display (.ref 1) = .ok "L\x7bitem=new, -7\x7d" := by
  have hd : (nested.follow changedFirst).cell 1 = .description
      ⟨.text "L", [⟨.text "item", .ref 0⟩, ⟨.null, .text "-7"⟩], false⟩ := rfl
  rw [display, displayFrom_description hd (by decide), Description.writtenWith_eq_ok]
  refine ⟨["item=new", "-7"], "L", ?_, rfl, rfl⟩
  have hitem : (nested.follow changedFirst).displayFrom
      ((nested.follow changedFirst).addresses.erase 1) (.ref 0) = .ok "new" := by
    rw [displayFrom]
    rfl
  refine mapM_cons_eq_ok.mpr ⟨_, _, ?_, mapM_cons_eq_ok.mpr ⟨_, _, ?_, rfl, rfl⟩, rfl⟩
  · exact bind_eq_ok.mpr ⟨"item", rfl, bind_eq_ok.mpr ⟨_, hitem, rfl⟩⟩
  · exact displayFrom_atom _ _ _

theorem follow_changedFirst :
    nested.follow changedFirst = nested.follow addedFirst ∧
      (nested.follow addedFirst).display (.ref 1) = .ok "L\x7bitem=new, -7\x7d" :=
  have h := (follow_interleaved nested 1 (.empty (.text "L")) addedFirst rfl).1 changedFirst rfl rfl
  ⟨h.1, h.1 ▸ display_changedFirst⟩

end Heap

end Depict

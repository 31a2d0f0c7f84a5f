import Depict.Proofs.Description.Interleaving

/-!
# Descriptions that cannot be written

Writing a description looks at its entries in the order of their adding, at the name of each before
its value, and at the label last. What is left out is not looked at. The first of these that has no
text decides what the whole fails with, and nothing is kept of an attempt that failed.
-/
namespace Depict

/-- The description leaves the entry out. -/
def Description.Hides (d : Description) (e : Entry) : Prop :=
  d.omitsNulls = true ∧ e.value = .null

/-- The first in a row of outcomes that is no text is this fault. -/
inductive FirstFault : List (Except Fault String) → Fault → Prop
  | here (f : Fault) (rest : List (Except Fault String)) : FirstFault (.error f :: rest) f
  | later (s : String) {rest : List (Except Fault String)} {f : Fault} (h : FirstFault rest f) :
      FirstFault (.ok s :: rest) f

namespace FirstFault
variable {xs ys : List (Except Fault String)} {f g : Fault} {s : String}

@[simp] theorem not_nil : ¬ FirstFault [] f := by
  intro h
  cases h

@[simp] theorem error_cons_iff : FirstFault (.error f :: xs) g ↔ f = g := by
  constructor
  · intro h
    cases h
    rfl
  · intro h
    subst h
    exact .here f xs

@[simp] theorem ok_cons_iff : FirstFault (.ok s :: xs) f ↔ FirstFault xs f := by
  constructor
  · intro h
    cases h with
    | later _ h => exact h
  · exact .later s

theorem append_iff :
    FirstFault (xs ++ ys) f ↔
      FirstFault xs f ∨ (∀ g, ¬ FirstFault xs g) ∧ FirstFault ys f := by
  induction xs with
  | nil => simp
  | cons x xs ih =>
    cases x with
    | error g => simp
    | ok s => simp [ih]

theorem exists_iff : (∃ f, FirstFault xs f) ↔ ∃ x ∈ xs, ∃ f, x = .error f := by
  induction xs with
  | nil => simp
  | cons x xs ih =>
    cases x with
    | error g => simp
    | ok s => simp [ih]

end FirstFault

/-- The computation looks at a row of outcomes: it fails with the first fault among them, and only
so. -/
def LooksAt {α : Type} (x : Except Fault α) (xs : List (Except Fault String)) : Prop :=
  ∀ f, x = .error f ↔ FirstFault xs f

namespace LooksAt
variable {α β : Type} {x : Except Fault α} {xs ys : List (Except Fault String)}

theorem of_ok (a : α) : LooksAt (.ok a) [] := by
  intro f
  simp

theorem of_text (x : Except Fault String) : LooksAt x [x] := by
  intro f
  cases x <;> simp

theorem later (h : LooksAt x xs) (s : String) : LooksAt x (.ok s :: xs) := by
  intro f
  rw [h f, FirstFault.ok_cons_iff]

theorem bind {k : α → Except Fault β} (hx : LooksAt x xs) (hk : ∀ a, LooksAt (k a) ys) :
    LooksAt (x >>= k) (xs ++ ys) := by
  intro f
  rw [bind_eq_error, FirstFault.append_iff, hx f]
  apply or_congr_right
  cases x with
  | error g =>
    have hg : FirstFault xs g := (hx g).mp rfl
    constructor
    · rintro ⟨a, ha, -⟩
      cases ha
    · intro h
      exact absurd hg (h.1 g)
  | ok a =>
    have hnone : ∀ g, ¬ FirstFault xs g := by
      intro g hg
      cases (hx g).mpr hg
    rw [← hk a f]
    simp [hnone]

theorem mapM {γ : Type} {f : γ → Except Fault α} {looks : γ → List (Except Fault String)}
    (h : ∀ c, LooksAt (f c) (looks c)) (l : List γ) :
    LooksAt (l.mapM f) (l.flatMap looks) := by
  induction l with
  | nil => exact .of_ok []
  | cons c l ih =>
    rw [List.mapM_cons, List.flatMap_cons]
    apply (h c).bind
    intro a
    rw [← List.append_nil (l.flatMap looks)]
    apply ih.bind
    intro as
    exact .of_ok _

end LooksAt

theorem Value.isNull_iff {v : Value} : v.isNull = true ↔ v = .null := by
  constructor
  · intro h
    unfold isNull at h
    split at h
    · rfl
    · cases h
  · rintro rfl
    rfl

namespace Description
variable {d : Description} {e : Entry}

theorem mem_visible_iff : e ∈ d.visible ↔ e ∈ d.entries ∧ ¬ d.Hides e := by
  rw [visible, List.mem_filter, Hides, ← Value.isNull_iff]
  cases d.omitsNulls <;> simp [Entry.isNull]

end Description

section
variable (shown : Value → Except Fault String)

/-- What is looked at in an entry: its name, and then its value. -/
def Entry.looks (e : Entry) : List (Except Fault String) :=
  [e.name.runningWith shown, e.value.writtenWith shown]

/-- What is looked at in a description: its visible entries in their order, and then its label. -/
def Description.looks (d : Description) : List (Except Fault String) :=
  d.visible.flatMap (Entry.looks shown) ++ [d.label.runningWith shown]

theorem Entry.looksAt (e : Entry) : LooksAt (e.writtenWith shown) (e.looks shown) := by
  unfold writtenWith looks
  split
  · next hn =>
    rw [Value.isNull_iff.mp hn]
    exact (LooksAt.of_text _).later "None"
  · apply (LooksAt.of_text _).bind
    intro name
    rw [← List.append_nil [e.value.writtenWith shown]]
    apply (LooksAt.of_text _).bind
    intro value
    exact .of_ok _

theorem Description.looksAt (d : Description) : LooksAt (d.writtenWith shown) (d.looks shown) := by
  unfold writtenWith looks
  apply (LooksAt.mapM (Entry.looksAt shown) _).bind
  intro items
  rw [← List.append_nil [d.label.runningWith shown]]
  apply (LooksAt.of_text _).bind
  intro label
  exact .of_ok _

theorem Description.exists_error_looks_iff (d : Description) :
    (∃ x ∈ d.looks shown, ∃ f, x = .error f) ↔
      (∃ f, d.label.runningWith shown = .error f) ∨ ∃ e ∈ d.entries, ¬ d.Hides e ∧
        ((∃ f, e.name.runningWith shown = .error f) ∨
          ∃ f, e.value.writtenWith shown = .error f) := by
  simp only [looks, Entry.looks, List.mem_append, List.mem_flatMap, List.mem_cons,
    List.not_mem_nil, or_false, mem_visible_iff]
  constructor
  · rintro ⟨x, ⟨e, ⟨he, hvisible⟩, rfl | rfl⟩ | rfl, hx⟩
    · exact .inr ⟨e, he, hvisible, .inl hx⟩
    · exact .inr ⟨e, he, hvisible, .inr hx⟩
    · exact .inl hx
  · rintro (hx | ⟨e, he, hvisible, hx | hx⟩)
    · exact ⟨_, .inr rfl, hx⟩
    · exact ⟨_, .inl ⟨e, ⟨he, hvisible⟩, .inl rfl⟩, hx⟩
    · exact ⟨_, .inl ⟨e, ⟨he, hvisible⟩, .inr rfl⟩, hx⟩

end

namespace Heap
variable {h : Heap} {a : Address} {d : Description}

theorem follow_congr {es es' : List Event}
    (hes : es'.filter Event.isStep = es.filter Event.isStep) : h.follow es' = h.follow es := by
  rw [← follow_filter_isStep h es', hes, follow_filter_isStep]

/-- A description fails with the first fault that is looked at, so it fails exactly if its label has
no text, or the name or the value of an entry that is not left out. Attempts to write it leave no
trace: after any steps that may mend what was wrong, it comes to what it comes to without them. -/
theorem display_fails (h : Heap) (a : Address) (d : Description) (hd : h.cell a = .description d) :
    (∀ f, h.display (.ref a) = .error f ↔ FirstFault (d.looks h.display) f) ∧
    ((∃ f, h.display (.ref a) = .error f) ↔
      (∃ f, h.runningText d.label = .error f) ∨ ∃ e ∈ d.entries, ¬ d.Hides e ∧
        ((∃ f, h.runningText e.name = .error f) ∨ ∃ f, h.writtenValue e.value = .error f)) ∧
    ∀ es es' : List Event, es'.filter Event.isStep = es.filter Event.isStep →
      (h.follow es').display (.ref a) = (h.follow es).display (.ref a) := by
  have hlooks : LooksAt (h.display (.ref a)) (d.looks h.display) := by
    rw [display_of_description hd]
    exact d.looksAt h.display
  refine ⟨hlooks, ?_, ?_⟩
  · have hexists : (∃ f, h.display (.ref a) = .error f) ↔ ∃ f, FirstFault (d.looks h.display) f :=
      exists_congr hlooks
    rw [hexists, FirstFault.exists_iff]
    exact d.exists_error_looks_iff h.display
  · intro es es' hes
    rw [follow_congr hes]

/-- An object says its text itself. -/
theorem display_object {o : Instance} {x : Except Fault String} (ho : h.cell a = .object o)
    (hx : o.display = x) : h.display (.ref a) = x := by
  rw [display, displayFrom, ho, ← hx]

/-- Two objects that raise faults. The second is the name of an entry that is left out, and the value
of one behind an entry that holds the first. -/
def raising : Heap :=
  ⟨[.object ⟨⟨.absent, "Item"⟩, .inherited, none, some ⟨.value, "first"⟩⟩,
    .object ⟨⟨.absent, "Item"⟩, .inherited, none, some ⟨.runtime, "second"⟩⟩,
    .description ⟨.text "L",
      [⟨.ref 1, .null⟩, ⟨.text "n", .ref 0⟩, ⟨.null, .ref 1⟩], true⟩]⟩

/-- Both are mended. -/
def mending : List Event :=
  [.act (.setText 0 (.given "mended")), .act (.setText 1 (.given "too"))]

theorem display_mended :
    (raising.follow mending).display (.ref 2) = .ok "L{n=mended, too}" := by
  have hd : (raising.follow mending).cell 2 = .description ⟨.text "L",
      [⟨.ref 1, .null⟩, ⟨.text "n", .ref 0⟩, ⟨.null, .ref 1⟩], true⟩ := rfl
  have hfirst : (raising.follow mending).display (.ref 0) = .ok "mended" := display_object rfl rfl
  have hsecond : (raising.follow mending).display (.ref 1) = .ok "too" := display_object rfl rfl
  rw [display_of_description hd, Description.writtenWith_eq_ok]
  refine ⟨["n=mended", "too"], "L", ?_, rfl, rfl⟩
  refine mapM_cons_eq_ok.mpr ⟨_, _, ?_, mapM_cons_eq_ok.mpr ⟨_, _, hsecond, rfl, rfl⟩, rfl⟩
  exact bind_eq_ok.mpr ⟨"n", rfl, bind_eq_ok.mpr ⟨_, hfirst, rfl⟩⟩

/-- The fault of the first object is reported, though that of the second belongs to an earlier entry;
attempts to write the description before, between and behind the repairs change nothing. -/
theorem display_fails_raising :
    raising.display (.ref 2) = .error (.raised ⟨.value, "first"⟩) ∧
      (raising.follow [.ask 2 .written, .act (.setText 0 (.given "mended")), .ask 2 .display,
        .act (.setText 1 (.given "too"))]).display (.ref 2) = .ok "L{n=mended, too}" := by
  have hd : raising.cell 2 = .description ⟨.text "L",
      [⟨.ref 1, .null⟩, ⟨.text "n", .ref 0⟩, ⟨.null, .ref 1⟩], true⟩ := rfl
  have hitem : raising.display (.ref 0) = .error (.raised ⟨.value, "first"⟩) := display_object rfl rfl
  obtain ⟨hfault, -, hruns⟩ := display_fails raising 2 _ hd
  refine ⟨?_, (hruns mending _ rfl).trans display_mended⟩
  rw [hfault]
  apply FirstFault.later "n"
  change FirstFault (raising.display (.ref 0) :: _) _
  rw [hitem]
  exact .here _ _

end Heap

end Depict

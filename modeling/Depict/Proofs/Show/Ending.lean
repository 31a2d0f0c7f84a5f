import Depict.Proofs.Show.Outcomes

/-!
# Texts that end

Writing a description goes on to what it shows, and showing a value inside others goes on to what is
looked at in it. A container that is met inside itself stops the second. The first comes to no
description twice, unless one is its own label, name or value, directly or through other descriptions.
So every value has a text or fails with what fails in it, and that is what the rules lead to.
-/
namespace Depict
open Relation

/-- An object that has a form of its own is no container, and nothing is looked at in it. -/
theorem Cell.of_inspectAlone {c : Cell} {s : String} (h : c.inspectAlone? = some s) :
    c.isContainer = false ∧ c.inspected = [] ∧ ∀ shown, c.inspectWith shown = .ok s := by
  cases c with
  | object o => exact ⟨rfl, rfl, fun _ => congrArg Except.ok (Option.some.inj h)⟩
  | type t of => exact ⟨rfl, rfl, fun _ => congrArg Except.ok (Option.some.inj h)⟩
  | _ => cases h

namespace Heap

/-- The first object is a description, and its label or the name or the value of an entry is the
second. -/
def Names (h : Heap) (a b : Address) : Prop :=
  ∃ d, h.cell a = .description d ∧
    (d.label = .ref b ∨ ∃ e ∈ d.entries, e.name = .ref b ∨ e.value = .ref b)

/-- The first object is no container, and the second is looked at in it inside other values. -/
def ShowsInside (h : Heap) (a b : Address) : Prop :=
  (h.cell a).isContainer = false ∧ .ref b ∈ (h.cell a).inspected

variable {h : Heap} {a b : Address} {v : Value}

theorem Writes.names (hab : h.Writes a b) : h.Names a b := by
  obtain ⟨d, hd, hb⟩ := hab
  refine ⟨d, hd, (List.mem_cons.mp hb).imp Eq.symm fun hb => ?_⟩
  obtain ⟨e, he, hb⟩ := List.mem_flatMap.mp hb
  exact ⟨e, List.mem_of_mem_filter he, by simpa [eq_comm] using hb⟩

theorem not_writes_self_of_names (ha : ¬ TransGen h.Names a a) : ¬ TransGen h.Writes a a := by
  intro hself
  exact ha (TransGen.mono (fun _ _ hab => Writes.names hab) _ _ hself)

theorem ShowsInside.names_or_member (hab : h.ShowsInside a b) :
    h.Names a b ∨ ∃ m, h.cell a = .member m := by
  obtain ⟨hc, hb⟩ := hab
  cases hcell : h.cell a with
  | description d =>
    rw [hcell] at hb
    exact .inl ⟨d, hcell, .inl (List.mem_singleton.mp hb).symm⟩
  | member m => exact .inr ⟨m, rfl⟩
  | object o =>
    rw [hcell] at hb
    cases hb
  | type t of =>
    rw [hcell] at hb
    cases hb
  | _ =>
    rw [hcell] at hc
    cases hc

/-- A way from object to object goes from description to description, or passes a member. -/
theorem names_or_passes_member (hab : TransGen h.ShowsInside a b) :
    TransGen h.Names a b ∨ ∃ c m, h.cell c = .member m ∧
      ReflTransGen h.ShowsInside a c ∧ TransGen h.ShowsInside c b := by
  induction hab with
  | single hab =>
    rcases hab.names_or_member with hnames | ⟨m, hm⟩
    · exact .inl (.single hnames)
    · exact .inr ⟨a, m, hm, .refl, .single hab⟩
  | tail hab hbc ih =>
    rcases ih with hnames | ⟨d, m, hm, had, hdb⟩
    · rcases hbc.names_or_member with hname | ⟨m, hm⟩
      · exact .inl (hnames.tail hname)
      · exact .inr ⟨_, m, hm, hab.to_reflTransGen, .single hbc⟩
    · exact .inr ⟨d, m, hm, had, hdb.tail hbc⟩

theorem not_showsInside_self (hnames : ∀ a, ¬ TransGen h.Names a a)
    (hmembers : ∀ a m, h.cell a = .member m → ¬ TransGen h.ShowsInside a a) (a : Address) :
    ¬ TransGen h.ShowsInside a a := by
  intro ha
  rcases names_or_passes_member ha with hname | ⟨b, m, hm, hab, hba⟩
  · exact hnames a hname
  · exact hmembers b m hm (hba.trans_left hab)

theorem mem_addresses_of_inspectAlone (ha : (h.cell a).inspectAlone? = none) :
    a ∈ h.addresses := by
  by_contra hout
  have hlength : h.cells.length ≤ a := by simpa using hout
  have hcell : h.cell a = stranger := by simp [cell, hlength]
  rw [hcell] at ha
  cases ha

/-- What follows an object that does not lead to itself leads only to the others. -/
theorem mem_erase_of_leadsTo {r : Address → Address → Prop} {live : List Address}
    (hself : ¬ TransGen r a a) (hnext : ∀ c, v = .ref c → r a c)
    (hlive : ∀ b ∈ h.addresses, (Value.ref a).LeadsTo r b → b ∈ live) :
    ∀ b ∈ h.addresses, v.LeadsTo r b → b ∈ live.erase a := by
  rintro b hb ⟨c, rfl, hcb⟩
  have hac : r a c := hnext c rfl
  have hne : b ≠ a := by
    rintro rfl
    exact hself (.head' hac hcb)
  exact (List.mem_erase_of_ne hne).mpr (hlive b hb ⟨a, rfl, .head hac hcb⟩)

/-- What is shown inside other values comes to what it is computed to be, as long as no object that it
leads to without a container has been entered. -/
theorem inspectsTo_inspectFrom (hself : ∀ a, ¬ TransGen h.ShowsInside a a)
    (fresh live : List Address) (v : Value)
    (hlive : ∀ b ∈ h.addresses, v.LeadsTo h.ShowsInside b → b ∈ live) :
    h.InspectsTo fresh v (h.inspectFrom fresh live v) := by
  induction fresh, live, v using Heap.inspectFrom.induct h with
  | case1 fresh live x =>
    rw [inspectFrom]
    exact .atom fresh x
  | case2 fresh live a s halone =>
    rw [inspectFrom, halone]
    obtain ⟨hc, hinspected, hform⟩ := Cell.of_inspectAlone halone
    have hnone : ∀ v ∈ (h.cell a).inspected, h.InspectsTo fresh v (.ok s) := by simp [hinspected]
    have hrule := InspectsTo.other _ hc hnone
    rwa [hform] at hrule
  | case3 fresh live a halone hcontainer hfresh ih =>
    rw [inspectFrom, halone]
    simp only [hcontainer, hfresh, if_true]
    exact .container _ hcontainer hfresh fun v _ => ih v fun b hb _ => hb
  | case4 fresh live a halone hcontainer hfresh =>
    rw [inspectFrom, halone]
    simp only [hcontainer, hfresh, if_true, if_false]
    exact .repeated hcontainer hfresh
  | case5 fresh live a halone hcontainer hlive' ih =>
    rw [inspectFrom, halone]
    simp only [if_neg hcontainer, if_pos hlive']
    have hc : (h.cell a).isContainer = false := by simpa using hcontainer
    refine .other _ hc fun v hv => ih v (mem_erase_of_leadsTo (hself a) ?_ hlive)
    rintro c rfl
    exact ⟨hc, hv⟩
  | case6 fresh live a halone hcontainer hout =>
    exact absurd (hlive a (mem_addresses_of_inspectAlone halone) (leadsTo_self _ a)) hout

theorem inspectsTo_inspect (hself : ∀ a, ¬ TransGen h.ShowsInside a a) (v : Value) :
    h.InspectsTo h.addresses v (h.inspect v) :=
  inspectsTo_inspectFrom hself _ _ v fun _ hb _ => hb

/-- The text of a value is what it is computed to be, as long as no description that it leads to is
being written. -/
theorem displaysTo_displayFrom (hinside : ∀ a, ¬ TransGen h.ShowsInside a a)
    (hself : ∀ a, ¬ TransGen h.Writes a a) (live : List Address) (v : Value)
    (hlive : ∀ b ∈ h.addresses, v.LeadsTo h.Writes b → b ∈ live) :
    h.DisplaysTo v (h.displayFrom live v) := by
  induction live, v using displayFrom_induct h with
  | atom live x =>
    rw [displayFrom_atom]
    exact .atom x
  | written live a d hd ha ih =>
    rw [displayFrom_description hd ha]
    refine .description _ hd fun v hv => ih v (mem_erase_of_leadsTo (hself a) ?_ hlive)
    rintro c rfl
    exact ⟨d, hd, hv⟩
  | endless live a d hd ha =>
    exact absurd (hlive a (mem_addresses_of_description hd) (leadsTo_self _ a)) ha
  | other live a hd =>
    rw [displayFrom]
    cases hc : h.cell a with
    | description d => exact absurd hc (hd d)
    | object o => exact .object hc
    | member m =>
      have hrule := DisplaysTo.member h.inspect hc fun v _ => inspectsTo_inspect hinside v
      rwa [← displayMember_eq] at hrule
    | _ => exact .other (by rw [hc]; rfl) (inspectsTo_inspect hinside _)

theorem displaysTo_display (hinside : ∀ a, ¬ TransGen h.ShowsInside a a)
    (hself : ∀ a, ¬ TransGen h.Writes a a) (v : Value) : h.DisplaysTo v (h.display v) :=
  displaysTo_displayFrom hinside hself _ v fun _ hb _ => hb

/-- Where no description is led back to itself by labels, names and values that are descriptions, every
value has a text and an inner form, or fails with what an atom or an object in it fails with by itself,
and each is the one outcome that the rules lead to. A description is never written inside itself then:
what it shows would come to the same if the description were cut short in it. The second hypothesis is
on members alone, whose values were there before them. -/
theorem display_inspect_end (h : Heap) (hnames : ∀ a, ¬ TransGen h.Names a a)
    (hmembers : ∀ a m, h.cell a = .member m → ¬ TransGen h.ShowsInside a a) (v : Value) :
    (∀ x, h.DisplaysTo v x ↔ h.display v = x) ∧
    (∀ x, h.InspectsTo h.addresses v x ↔ h.inspect v = x) ∧
    (∀ x, x = h.display v ∨ x = h.inspect v →
      (∃ s, x = .ok s) ∨ ∃ f, x = .error f ∧ f ≠ .endless ∧ h.FailsInside v f) ∧
    ∀ a d, h.cell a = .description d → ∀ w ∈ d.shown,
      h.displayFrom (h.addresses.erase a) w = h.display w := by
  have hwrites : ∀ a, ¬ TransGen h.Writes a a := fun a => not_writes_self_of_names (hnames a)
  have hinside := not_showsInside_self hnames hmembers
  have hdisplay := displaysTo_display hinside hwrites v
  have hinspect := inspectsTo_inspect hinside v
  refine ⟨fun x => ⟨hdisplay.unique, ?_⟩, fun x => ⟨hinspect.unique, ?_⟩, ?_, ?_⟩
  · rintro rfl
    exact hdisplay
  · rintro rfl
    exact hinspect
  · intro x hx
    cases x with
    | ok s => exact .inl ⟨s, rfl⟩
    | error f =>
      have hf : h.FailsInside v f := by
        rcases hx with hx | hx
        · exact hdisplay.failsInside hx.symm
        · exact hinspect.failsInside hx.symm
      obtain ⟨w, hw, hwf⟩ := hf
      exact .inr ⟨f, rfl, hwf.ne_endless, w, hw, hwf⟩
  · intro a d hd w hw
    exact displayFrom_erase_of_shown hd (hwrites a) hw

/-- A list that holds itself, a description that has it as its label and as a value, and a member that
has the description as its value. -/
def ring : Heap :=
  ⟨[.list [.ref 0, .ref 1, .ref 2],
    .description ⟨.ref 0, [⟨.text "self", .ref 0⟩], false⟩,
    .member ⟨.plain, "E", "M", .ref 1, false⟩]⟩

theorem lt_of_names_ring (a b : Address) (hab : ring.Names a b) : b < a := by
  obtain ⟨d, hd, hb⟩ := hab
  match a with
  | 0 => cases hd
  | 1 =>
    cases hd
    have hb : b = 0 := by simpa [Value.text, eq_comm] using hb
    rw [hb]
    exact Nat.zero_lt_one
  | 2 => cases hd
  | a + 3 => simp [ring, cell, stranger] at hd

theorem lt_of_showsInside_ring (a b : Address) (hab : ring.ShowsInside a b) : b < a := by
  obtain ⟨hc, hb⟩ := hab
  match a with
  | 0 => cases hc
  | 1 =>
    have hb : b = 0 := by simpa [ring, cell, Cell.inspected] using hb
    rw [hb]
    exact Nat.zero_lt_one
  | 2 =>
    have hb : b = 1 := by simpa [ring, cell, Cell.inspected, Cell.parts] using hb
    rw [hb]
    exact Nat.one_lt_two
  | a + 3 => simp [ring, cell, stranger, Cell.inspected, Cell.parts] at hb

/-- The inner forms of what is in the list while that is being shown. -/
def ringForms : Value → Except Fault String
  | .ref 1 => .ok "ToStringHelper(label=[...], entries=1, omit_null_values=False)"
  | .ref 2 => .ok "<E.M: ToStringHelper(label=[...], entries=1, omit_null_values=False)>"
  | _ => .ok "[...]"

def ringText : String :=
  "[[...], ToStringHelper(label=[...], entries=1, omit_null_values=False), " ++
    "<E.M: ToStringHelper(label=[...], entries=1, omit_null_values=False)>]"

theorem inspectsTo_ring : ring.InspectsTo ring.addresses (.ref 0) (.ok ringText) := by
  have hlist : ring.InspectsTo [1, 2] (.ref 0) (ringForms (.ref 0)) := .repeated rfl (by decide)
  have hdescription : ring.InspectsTo [1, 2] (.ref 1) (ringForms (.ref 1)) := by
    apply InspectsTo.other ringForms rfl
    intro v hv
    rw [List.mem_singleton.mp hv]
    exact hlist
  have hmember : ring.InspectsTo [1, 2] (.ref 2) (ringForms (.ref 2)) := by
    apply InspectsTo.other ringForms rfl
    intro v hv
    rw [List.mem_singleton.mp hv]
    exact hdescription
  have hform : (ring.cell 0).inspectWith ringForms = .ok ringText := by decide +kernel
  rw [← hform]
  apply InspectsTo.container ringForms rfl (by decide)
  intro v hv
  have hv : v = .ref 0 ∨ v = .ref 1 ∨ v = .ref 2 := by
    simpa [ring, cell, Cell.inspected, Cell.parts] using hv
  rcases hv with rfl | rfl | rfl
  · exact hlist
  · exact hdescription
  · exact hmember

/-- The texts of what the description shows. -/
def ringTexts : Value → Except Fault String
  | .ref _ => .ok ringText
  | .atom x => x.display

theorem displaysTo_ring :
    ring.DisplaysTo (.ref 1) (.ok (ringText ++ "\x7bself=" ++ ringText ++ "\x7d")) := by
  have hlist : ring.DisplaysTo (.ref 0) (.ok ringText) := .other rfl inspectsTo_ring
  have hform : Description.writtenWith ringTexts ⟨.ref 0, [⟨.text "self", .ref 0⟩], false⟩ =
      .ok (ringText ++ "\x7bself=" ++ ringText ++ "\x7d") := by
    decide +kernel
  rw [← hform]
  apply DisplaysTo.description ringTexts rfl
  intro v hv
  have hv : v = .ref 0 ∨ v = .text "self" ∨ v = .ref 0 := by
    simpa [Description.shown, Description.visible, Entry.isNull] using hv
  rcases hv with rfl | rfl | rfl
  · exact hlist
  · exact .atom _
  · exact hlist

/-- The texts pass the list again and again and end. -/
theorem display_inspect_end_ring :
    (∀ a, ¬ TransGen ring.Names a a) ∧
      ring.display (.ref 1) = .ok (ringText ++ "\x7bself=" ++ ringText ++ "\x7d") ∧
      ring.inspect (.ref 0) = .ok ringText := by
  have hnames := not_transGen_self_of_lt lt_of_names_ring
  have hend := display_inspect_end ring hnames fun a _ _ =>
    not_transGen_self_of_lt lt_of_showsInside_ring a
  refine ⟨hnames, ?_, ?_⟩
  · exact ((hend (.ref 1)).1 _).mp displaysTo_ring
  · exact ((hend (.ref 0)).2.1 _).mp inspectsTo_ring

end Heap

end Depict

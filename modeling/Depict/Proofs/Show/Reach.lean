import Depict.Proofs.Show.Depth
import Mathlib.Logic.Relation

/-!
# What a text looks at

A text looks at the object that it is of, at what that holds, and so on; no other object in the heap
matters to it. A description that does not lead back to itself is written from the texts that its
parts have by themselves, whatever is being written around it.
-/
namespace Depict
open Relation

/-- What is looked at when a description is written: its label, and the names and values of the
entries that are not left out. -/
def Description.shown (d : Description) : List Value :=
  d.label :: d.visible.flatMap fun e => [e.name, e.value]

/-- The values that an object holds. -/
def Cell.parts : Cell → List Value
  | list items => items
  | tuple items => items
  | dict pairs => pairs.flatMap fun p => [p.1, p.2]
  | set items => items
  | object _ => []
  | type _ _ => []
  | member m => [m.value]
  | description d => d.label :: d.entries.flatMap fun e => [e.name, e.value]

namespace Heap

/-- The first object holds the second. -/
def Holds (h : Heap) (a b : Address) : Prop :=
  .ref b ∈ (h.cell a).parts

/-- The first object is a description, and writing it looks at the second. -/
def Writes (h : Heap) (a b : Address) : Prop :=
  ∃ d, h.cell a = .description d ∧ .ref b ∈ d.shown

end Heap

variable {shown shown' : Value → Except Fault String}

namespace Value

theorem runningWith_congr {v : Value} (h : shown v = shown' v) :
    v.runningWith shown = v.runningWith shown' := by
  cases v with
  | atom a => rfl
  | ref a => exact h

theorem writtenWith_congr {v : Value} (h : shown v = shown' v) :
    v.writtenWith shown = v.writtenWith shown' := by
  cases v with
  | atom a =>
    unfold writtenWith
    rw [h]
    rfl
  | ref a => exact h

end Value

theorem Entry.writtenWith_congr {e : Entry} (hname : shown e.name = shown' e.name)
    (hvalue : shown e.value = shown' e.value) : e.writtenWith shown = e.writtenWith shown' := by
  rw [Entry.writtenWith, Entry.writtenWith, Value.runningWith_congr hname,
    Value.writtenWith_congr hvalue]

namespace Description
variable {d : Description} {e : Entry}

theorem name_mem_shown (he : e ∈ d.visible) : e.name ∈ d.shown :=
  List.mem_cons_of_mem _ (List.mem_flatMap.mpr ⟨e, he, by simp⟩)

theorem value_mem_shown (he : e ∈ d.visible) : e.value ∈ d.shown :=
  List.mem_cons_of_mem _ (List.mem_flatMap.mpr ⟨e, he, by simp⟩)

theorem writtenWith_congr (h : ∀ v ∈ d.shown, shown v = shown' v) :
    d.writtenWith shown = d.writtenWith shown' := by
  have hitems : d.visible.mapM (Entry.writtenWith shown) =
      d.visible.mapM (Entry.writtenWith shown') := by
    apply mapM_congr
    intro e he
    exact Entry.writtenWith_congr (h _ (name_mem_shown he)) (h _ (value_mem_shown he))
  have hlabel : d.label.runningWith shown = d.label.runningWith shown' :=
    Value.runningWith_congr (h _ List.mem_cons_self)
  rw [writtenWith, writtenWith, hitems, hlabel]

/-- A description is written only if every object that it shows has a text. -/
theorem exists_text_of_writtenWith {s : String} (hs : d.writtenWith shown = .ok s) {b : Address}
    (hb : .ref b ∈ d.shown) : ∃ t, shown (.ref b) = .ok t := by
  obtain ⟨items, label, hitems, hlabel, -⟩ := writtenWith_eq_ok.mp hs
  rcases List.mem_cons.mp hb with hb | hb
  · rw [← hb] at hlabel
    exact ⟨label, hlabel⟩
  · obtain ⟨e, he, hb⟩ := List.mem_flatMap.mp hb
    obtain ⟨item, hitem⟩ := exists_eq_ok_of_mapM hitems e he
    have hb : .ref b = e.name ∨ .ref b = e.value := by simpa using hb
    unfold Entry.writtenWith at hitem
    rcases hb with hb | hb
    · rw [← hb] at hitem
      obtain ⟨name, hname, -⟩ := bind_eq_ok.mp hitem
      exact ⟨name, hname⟩
    · rw [← hb] at hitem
      split at hitem
      · exact ⟨item, hitem⟩
      · obtain ⟨name, -, hitem⟩ := bind_eq_ok.mp hitem
        obtain ⟨value, hvalue, -⟩ := bind_eq_ok.mp hitem
        exact ⟨value, hvalue⟩

end Description

namespace Cell

/-- The second object shows inside other values as the first does: it is the same, or both are
descriptions with one label, one number of entries and one flag. -/
inductive InspectsAs : Cell → Cell → Prop
  | same (c : Cell) : InspectsAs c c
  | description {label : Value} {es es' : List Entry} (omits : Bool) (h : es'.length = es.length) :
      InspectsAs (.description ⟨label, es, omits⟩) (.description ⟨label, es', omits⟩)

theorem inspectWith_congr {c : Cell} (h : ∀ v ∈ c.parts, shown v = shown' v) :
    c.inspectWith shown = c.inspectWith shown' := by
  have hitems : ∀ items : List Value, (∀ v ∈ items, shown v = shown' v) →
      itemsWith shown items = itemsWith shown' items :=
    fun items h => congrArg (Except.map joined) (mapM_congr h)
  cases c with
  | list items => rw [inspectWith, inspectWith, hitems items h]
  | tuple items =>
    match items with
    | [] => rfl
    | [item] => rw [inspectWith, inspectWith, h item List.mem_cons_self]
    | item :: next :: items => rw [inspectWith, inspectWith, hitems (item :: next :: items) h] <;> simp
  | dict pairs =>
    have hpairs : pairs.mapM (pairWith shown) = pairs.mapM (pairWith shown') := by
      apply mapM_congr
      intro p hp
      have hp : ∀ v ∈ [p.1, p.2], v ∈ (dict pairs).parts :=
        fun v hv => List.mem_flatMap.mpr ⟨p, hp, hv⟩
      rw [pairWith, pairWith, h p.1 (hp _ (by simp)), h p.2 (hp _ (by simp))]
    rw [inspectWith, inspectWith, hpairs]
  | set items =>
    match items with
    | [] => rfl
    | item :: items => rw [inspectWith, inspectWith, hitems (item :: items) h] <;> simp
  | object o => rfl
  | type t of => rfl
  | member m => rw [inspectWith, inspectWith, h m.value List.mem_cons_self]
  | description d => rw [inspectWith, inspectWith, h d.label List.mem_cons_self]

namespace InspectsAs
variable {c c' : Cell}

theorem inspectAlone? (h : InspectsAs c c') : c'.inspectAlone? = c.inspectAlone? := by
  cases h <;> rfl

theorem isContainer (h : InspectsAs c c') : c'.isContainer = c.isContainer := by
  cases h <;> rfl

theorem ellipsis (h : InspectsAs c c') : c'.ellipsis = c.ellipsis := by
  cases h <;> rfl

theorem inspectWith (h : InspectsAs c c') (shown : Value → Except Fault String) :
    c'.inspectWith shown = c.inspectWith shown := by
  cases h with
  | same => rfl
  | description omits h => rw [Cell.inspectWith, Cell.inspectWith, h]

end InspectsAs

end Cell

/-- The value is an object that leads to the one at the address, from each object to the next as the
relation says. -/
def Value.LeadsTo (r : Address → Address → Prop) (v : Value) (b : Address) : Prop :=
  ∃ a, v = .ref a ∧ ReflTransGen r a b

namespace Heap
variable {h h' : Heap} {a b : Address} {v : Value} {d : Description}

theorem leadsTo_self (r : Address → Address → Prop) (a : Address) : (Value.ref a).LeadsTo r a :=
  ⟨a, rfl, .refl⟩

/-- A relation to earlier objects leads no object to itself. -/
theorem not_transGen_self_of_lt {r : Address → Address → Prop} (hlt : ∀ a b, r a b → b < a)
    (a : Address) : ¬ TransGen r a a := by
  intro ha
  have hback : ∀ b, TransGen r a b → b < a := by
    intro b hb
    induction hb with
    | single hab => exact hlt _ _ hab
    | tail _ hbc ih => exact Nat.lt_trans (hlt _ _ hbc) ih
  exact Nat.lt_irrefl a (hback a ha)

theorem leadsTo_of_part (hv : v ∈ (h.cell a).parts) (hb : v.LeadsTo h.Holds b) :
    (Value.ref a).LeadsTo h.Holds b := by
  obtain ⟨c, rfl, hc⟩ := hb
  exact ⟨a, rfl, .head hv hc⟩

theorem leadsTo_of_shown (hd : h.cell a = .description d) (hv : v ∈ d.shown)
    (hb : v.LeadsTo h.Writes b) : (Value.ref a).LeadsTo h.Writes b := by
  obtain ⟨c, rfl, hc⟩ := hb
  exact ⟨a, rfl, .head ⟨d, hd, hv⟩ hc⟩

theorem mem_parts_of_mem_shown (hd : h.cell a = .description d) (hv : v ∈ d.shown) :
    v ∈ (h.cell a).parts := by
  rw [hd]
  apply List.mem_cons.mpr
  refine (List.mem_cons.mp hv).imp_right fun hv => ?_
  obtain ⟨e, he, hv⟩ := List.mem_flatMap.mp hv
  exact List.mem_flatMap.mpr ⟨e, List.mem_of_mem_filter he, hv⟩

theorem Writes.holds (hab : h.Writes a b) : h.Holds a b := by
  obtain ⟨d, hd, hb⟩ := hab
  exact mem_parts_of_mem_shown hd hb

/-- Inside other values a value shows alike in two heaps if all that it leads to does. -/
theorem inspectFrom_congr (haddr : h'.addresses = h.addresses) (fresh live : List Address)
    (hcell : ∀ b, v.LeadsTo h.Holds b → (h.cell b).InspectsAs (h'.cell b)) :
    h'.inspectFrom fresh live v = h.inspectFrom fresh live v := by
  -- the cases are those of the recursion: a form of its own, a container, and any other object, the
  -- last two either entered or met inside themselves
  induction fresh, live, v using Heap.inspectFrom.induct h with
  | case1 fresh live x => rw [inspectFrom, inspectFrom]
  | case2 fresh live a s halone =>
    have hself := hcell a (leadsTo_self _ a)
    rw [inspectFrom, inspectFrom, hself.inspectAlone?, halone]
  | case3 fresh live a halone hcontainer hfresh ih =>
    have hself := hcell a (leadsTo_self _ a)
    have hparts : ∀ v ∈ (h.cell a).parts, h'.inspectFrom (fresh.erase a) h'.addresses v =
        h.inspectFrom (fresh.erase a) h.addresses v := by
      intro v hv
      rw [haddr]
      exact ih v fun b hb => hcell b (leadsTo_of_part hv hb)
    rw [inspectFrom, inspectFrom, hself.inspectAlone?, halone]
    simp only [hself.isContainer, hcontainer, hfresh, if_true]
    rw [hself.inspectWith]
    exact Cell.inspectWith_congr hparts
  | case4 fresh live a halone hcontainer hfresh =>
    have hself := hcell a (leadsTo_self _ a)
    rw [inspectFrom, inspectFrom, hself.inspectAlone?, halone]
    simp only [hself.isContainer, hself.ellipsis, hcontainer, hfresh, if_true, if_false]
  | case5 fresh live a halone hcontainer hlive ih =>
    have hself := hcell a (leadsTo_self _ a)
    have hparts : ∀ v ∈ (h.cell a).parts, h'.inspectFrom fresh (live.erase a) v =
        h.inspectFrom fresh (live.erase a) v :=
      fun v hv => ih v fun b hb => hcell b (leadsTo_of_part hv hb)
    rw [inspectFrom, inspectFrom, hself.inspectAlone?, halone]
    simp only [hself.isContainer, if_neg hcontainer, if_pos hlive]
    rw [hself.inspectWith]
    exact Cell.inspectWith_congr hparts
  | case6 fresh live a halone hcontainer hlive =>
    have hself := hcell a (leadsTo_self _ a)
    rw [inspectFrom, inspectFrom, hself.inspectAlone?, halone]
    simp only [hself.isContainer, if_neg hcontainer, if_neg hlive]

theorem inspect_congr (haddr : h'.addresses = h.addresses)
    (hcell : ∀ b, v.LeadsTo h.Holds b → (h.cell b).InspectsAs (h'.cell b)) :
    h'.inspect v = h.inspect v := by
  rw [inspect, inspect, haddr]
  exact inspectFrom_congr haddr _ _ hcell

theorem displayMember_congr {m : Member} (hm : h'.inspect m.value = h.inspect m.value) :
    h'.displayMember m = h.displayMember m := by
  unfold displayMember
  cases hv : m.value with
  | atom x => cases m.family <;> rfl
  | ref b =>
    rw [hv] at hm
    cases m.family <;> simp only [hm]

/-- An object that is no description has the same text in two heaps that both hold it, if what it
shows is the same inside other values. -/
theorem displayFrom_of_other (hd : ∀ d, h.cell a ≠ .description d) (hcell : h'.cell a = h.cell a)
    (hself : h'.inspect (.ref a) = h.inspect (.ref a))
    (hparts : ∀ v ∈ (h.cell a).parts, h'.inspect v = h.inspect v) (live : List Address) :
    h'.displayFrom live (.ref a) = h.displayFrom live (.ref a) := by
  rw [displayFrom, displayFrom, hcell]
  cases hc : h.cell a with
  | description d => exact absurd hc (hd d)
  | member m =>
    apply displayMember_congr
    apply hparts
    rw [hc]
    exact List.mem_cons_self
  | object o => rfl
  | _ => exact hself

/-- A text is the same in two heaps that agree on all that the value leads to. -/
theorem displayFrom_congr (haddr : h'.addresses = h.addresses) (live : List Address)
    (hcell : ∀ b, v.LeadsTo h.Holds b → h'.cell b = h.cell b) :
    h'.displayFrom live v = h.displayFrom live v := by
  have hinspect : ∀ v : Value, (∀ b, v.LeadsTo h.Holds b → h'.cell b = h.cell b) →
      h'.inspect v = h.inspect v := by
    intro v hcell
    apply inspect_congr haddr
    intro b hb
    rw [hcell b hb]
    exact .same _
  induction live, v using displayFrom_induct h with
  | atom live x => rw [displayFrom, displayFrom]
  | written live a d hd ha ih =>
    have hd' := (hcell a (leadsTo_self _ a)).trans hd
    rw [displayFrom_description hd' ha, displayFrom_description hd ha]
    apply Description.writtenWith_congr
    intro v hv
    exact ih v fun b hb => hcell b (leadsTo_of_part (mem_parts_of_mem_shown hd hv) hb)
  | endless live a d hd ha =>
    have hd' := (hcell a (leadsTo_self _ a)).trans hd
    rw [displayFrom_endless hd' ha, displayFrom_endless hd ha]
  | other live a hd =>
    apply displayFrom_of_other hd (hcell a (leadsTo_self _ a)) (hinspect _ hcell)
    intro v hv
    exact hinspect v fun b hb => hcell b (leadsTo_of_part hv hb)

/-- Which descriptions are being written matters only to what leads back to one of them. -/
theorem displayFrom_live {live live' : List Address} (hn : live.Nodup) (hn' : live'.Nodup)
    (hagree : ∀ b, v.LeadsTo h.Writes b → (b ∈ live ↔ b ∈ live')) :
    h.displayFrom live v = h.displayFrom live' v := by
  induction live, v using displayFrom_induct h generalizing live' with
  | atom live x => rw [displayFrom, displayFrom]
  | written live a d hd ha ih =>
    have ha' := (hagree a (leadsTo_self _ a)).mp ha
    rw [displayFrom_description hd ha, displayFrom_description hd ha']
    apply Description.writtenWith_congr
    intro v hv
    apply ih v (hn.erase a) (hn'.erase a)
    intro b hb
    rw [hn.mem_erase_iff, hn'.mem_erase_iff, hagree b (leadsTo_of_shown hd hv hb)]
  | endless live a d hd ha =>
    have ha' := mt (hagree a (leadsTo_self _ a)).mpr ha
    rw [displayFrom_endless hd ha, displayFrom_endless hd ha']
  | other live a hd => exact displayFrom_other hd live live'

/-- What a description shows comes to what it comes to by itself, if that does not lead back to the
description. -/
theorem displayFrom_erase_of_shown (hd : h.cell a = .description d) (ha : ¬ TransGen h.Writes a a)
    (hv : v ∈ d.shown) : h.displayFrom (h.addresses.erase a) v = h.display v := by
  apply displayFrom_live (h.nodup_addresses.erase a) h.nodup_addresses
  rintro b ⟨c, rfl, hcb⟩
  have hne : b ≠ a := by
    rintro rfl
    exact ha (.head' ⟨d, hd, hv⟩ hcb)
  simp [h.nodup_addresses.mem_erase_iff, hne]

/-- A description that does not lead back to itself is written from the texts that its parts have by
themselves. -/
theorem display_eq_writtenWith (hd : h.cell a = .description d) (ha : ¬ TransGen h.Writes a a) :
    h.display (.ref a) = d.writtenWith h.display := by
  rw [display, displayFrom_description hd (mem_addresses_of_description hd)]
  exact Description.writtenWith_congr fun v hv => displayFrom_erase_of_shown hd ha hv

/-- What a text was found for leads to objects that have texts as well. -/
theorem exists_text_of_reached {live : List Address} {s : String} (hn : live.Nodup)
    (hs : h.displayFrom live (.ref a) = .ok s) (hab : ReflTransGen h.Writes a b) :
    ∃ live' t, live' ⊆ live ∧ live'.Nodup ∧ h.displayFrom live' (.ref b) = .ok t := by
  induction hab with
  | refl => exact ⟨live, s, List.Subset.refl _, hn, hs⟩
  | @tail b c _ hbc ih =>
    obtain ⟨live', t, hsub, hn', ht⟩ := ih
    obtain ⟨d, hd, hc⟩ := hbc
    by_cases hb : b ∈ live'
    · rw [displayFrom_description hd hb] at ht
      obtain ⟨u, hu⟩ := Description.exists_text_of_writtenWith ht hc
      exact ⟨live'.erase b, u, List.Subset.trans List.erase_subset hsub, hn'.erase b, hu⟩
    · rw [displayFrom_endless hd hb] at ht
      cases ht

/-- A description that has a text does not lead back to itself. -/
theorem not_writes_self_of_display {s : String} (hs : h.display (.ref a) = .ok s) :
    ¬ TransGen h.Writes a a := by
  intro ha
  obtain ⟨c, ⟨d, hd, hc⟩, hca⟩ := TransGen.head'_iff.mp ha
  rw [display, displayFrom_description hd (mem_addresses_of_description hd)] at hs
  obtain ⟨t, ht⟩ := Description.exists_text_of_writtenWith hs hc
  obtain ⟨live, u, hsub, -, hu⟩ := exists_text_of_reached (h.nodup_addresses.erase a) ht hca
  have hout : a ∉ live := fun hmem => h.nodup_addresses.not_mem_erase (hsub hmem)
  rw [displayFrom_endless hd hout] at hu
  cases hu

end Heap

end Depict

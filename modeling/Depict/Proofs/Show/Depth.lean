import Depict.Proofs.Heap.Steps
import Depict.Show.Written

/-!
# Texts that do not depend on the depth

A value is shown while some descriptions are being written already, and one of these inside the
value would have no end. What comes of it so is what comes of the value by itself, unless it is cut
short as endless. So a description is written from what its parts come to by themselves, text or
fault, even if it leads back to itself.
-/
namespace Depict

/-- The first outcome is the second, or it is cut short as endless. -/
def Truncates {α : Type} (x y : Except Fault α) : Prop :=
  x = .error .endless ∨ x = y

namespace Truncates
variable {α β : Type} {x y : Except Fault α}

theorem refl (x : Except Fault α) : Truncates x x :=
  .inr rfl

theorem bind {f g : α → Except Fault β} (h : Truncates x y) (hfg : ∀ a, Truncates (f a) (g a)) :
    Truncates (x >>= f) (y >>= g) := by
  rcases h with rfl | rfl
  · exact .inl rfl
  · cases x with
    | error e => exact .refl _
    | ok a => exact hfg a

theorem mapM {f g : β → Except Fault α} (h : ∀ b, Truncates (f b) (g b)) (l : List β) :
    Truncates (l.mapM f) (l.mapM g) := by
  induction l with
  | nil => exact .refl _
  | cons b l ih =>
    rw [List.mapM_cons, List.mapM_cons]
    apply (h b).bind
    intro a
    apply ih.bind
    intro as
    exact .refl _

theorem eq_endless (h : Truncates x y) (hy : y = .error .endless) : x = .error .endless := by
  rcases h with h | h
  · exact h
  · exact h.trans hy

end Truncates

section
variable {shown shown' : Value → Except Fault String}

theorem Value.runningWith_truncates (h : ∀ v, Truncates (shown v) (shown' v)) (v : Value) :
    Truncates (v.runningWith shown) (v.runningWith shown') := by
  cases v with
  | atom a => exact .refl _
  | ref a => exact h _

theorem Value.writtenWith_truncates (h : ∀ v, Truncates (shown v) (shown' v)) (v : Value) :
    Truncates (v.writtenWith shown) (v.writtenWith shown') := by
  cases v with
  | atom a =>
    unfold Value.writtenWith
    split
    · exact .refl _
    · split
      · exact .refl _
      · exact h _
  | ref a => exact h _

theorem Entry.writtenWith_truncates (h : ∀ v, Truncates (shown v) (shown' v)) (e : Entry) :
    Truncates (e.writtenWith shown) (e.writtenWith shown') := by
  unfold Entry.writtenWith
  split
  · exact Value.writtenWith_truncates h _
  · apply (Value.runningWith_truncates h _).bind
    intro name
    apply (Value.writtenWith_truncates h _).bind
    intro value
    exact .refl _

theorem Description.writtenWith_truncates (h : ∀ v, Truncates (shown v) (shown' v))
    (d : Description) : Truncates (d.writtenWith shown) (d.writtenWith shown') := by
  unfold Description.writtenWith
  apply (Truncates.mapM (Entry.writtenWith_truncates h) _).bind
  intro items
  apply (Value.runningWith_truncates h _).bind
  intro label
  exact .refl _

theorem Description.writtenWith_eq_ok {d : Description} {s : String} :
    d.writtenWith shown = .ok s ↔ ∃ items label,
      d.visible.mapM (Entry.writtenWith shown) = .ok items ∧
        d.label.runningWith shown = .ok label ∧ label ++ "\x7b" ++ joined items ++ "\x7d" = s := by
  unfold Description.writtenWith
  constructor
  · intro hs
    obtain ⟨items, hitems, hs⟩ := bind_eq_ok.mp hs
    obtain ⟨label, hlabel, hs⟩ := bind_eq_ok.mp hs
    exact ⟨items, label, hitems, hlabel, Except.ok.inj hs⟩
  · rintro ⟨items, label, hitems, hlabel, rfl⟩
    exact bind_eq_ok.mpr ⟨items, hitems, bind_eq_ok.mpr ⟨label, hlabel, rfl⟩⟩

end

namespace Heap

@[simp] theorem displayFrom_atom (h : Heap) (live : List Address) (a : Atom) :
    h.displayFrom live (.atom a) = a.display := by
  rw [displayFrom]

theorem displayFrom_description {h : Heap} {live : List Address} {a : Address} {d : Description}
    (hd : h.cell a = .description d) (ha : a ∈ live) :
    h.displayFrom live (.ref a) = d.writtenWith (h.displayFrom (live.erase a)) := by
  rw [displayFrom, hd]
  exact if_pos ha

theorem displayFrom_endless {h : Heap} {live : List Address} {a : Address} {d : Description}
    (hd : h.cell a = .description d) (ha : a ∉ live) :
    h.displayFrom live (.ref a) = .error .endless := by
  rw [displayFrom, hd]
  exact if_neg ha

/-- Only a description asks for the texts of its parts. -/
@[elab_as_elim]
theorem displayFrom_induct (h : Heap) {motive : List Address → Value → Prop}
    (atom : ∀ live x, motive live (.atom x))
    (written : ∀ live a d, h.cell a = .description d → a ∈ live →
      (∀ v, motive (live.erase a) v) → motive live (.ref a))
    (endless : ∀ live a d, h.cell a = .description d → a ∉ live → motive live (.ref a))
    (other : ∀ live a, (∀ d, h.cell a ≠ .description d) → motive live (.ref a))
    (live : List Address) (v : Value) : motive live v := by
  induction live, v using displayFrom.induct h with
  | case1 live x => exact atom live x
  | case2 live a d hd ha ih => exact written live a d hd ha ih
  | case3 live a d hd ha => exact endless live a d hd ha
  | case4 live a o ho => exact other live a (by simp [ho])
  | case5 live a m hm => exact other live a (by simp [hm])
  | case6 live a hd _ _ => exact other live a hd

/-- What is no description has one text whatever is being written. -/
theorem displayFrom_other {h : Heap} {a : Address} (hd : ∀ d, h.cell a ≠ .description d)
    (live live' : List Address) : h.displayFrom live (.ref a) = h.displayFrom live' (.ref a) := by
  rw [displayFrom, displayFrom]
  cases hc : h.cell a with
  | description d => exact absurd hc (hd d)
  | _ => rfl

/-- More descriptions that are not being written yet can only make an endless text end. -/
theorem displayFrom_truncates (h : Heap) (live : List Address) (v : Value) :
    ∀ live' : List Address, live.Sublist live' →
      Truncates (h.displayFrom live v) (h.displayFrom live' v) := by
  induction live, v using displayFrom_induct h with
  | atom live x =>
    intro live' _
    simp [Truncates.refl]
  | written live a d hd ha ih =>
    intro live' hsub
    rw [displayFrom_description hd ha, displayFrom_description hd (hsub.subset ha)]
    apply Description.writtenWith_truncates
    intro v
    exact ih v _ (hsub.erase a)
  | endless live a d hd ha =>
    intro live' _
    exact .inl (displayFrom_endless hd ha)
  | other live a hd =>
    intro live' _
    exact .inr (displayFrom_other hd live live')

theorem nodup_addresses (h : Heap) : h.addresses.Nodup :=
  List.nodup_range

variable {h : Heap} {a : Address} {d : Description}

theorem mem_addresses_of_description (hd : h.cell a = .description d) : a ∈ h.addresses :=
  mem_addresses.mpr (lt_length_of_description hd)

/-- A description whose text has no end has none at any depth, so that it makes no difference if it
is taken for one that is being written. -/
theorem displayFrom_erase_of_endless (hd : h.cell a = .description d)
    (he : h.display (.ref a) = .error .endless) (live : List Address) (v : Value) :
    live.Sublist h.addresses → h.displayFrom (live.erase a) v = h.displayFrom live v := by
  induction live, v using displayFrom_induct h with
  | atom live x => simp
  | written live b e hb hmem ih =>
    intro hsub
    by_cases hba : b = a
    · have hnodup : live.Nodup := hsub.nodup h.nodup_addresses
      rw [hba, displayFrom_endless hd hnodup.not_mem_erase]
      exact ((h.displayFrom_truncates live _ _ hsub).eq_endless he).symm
    · have hparts : h.displayFrom ((live.erase a).erase b) = h.displayFrom (live.erase b) := by
        funext v
        rw [List.erase_comm]
        exact ih v (List.erase_sublist.trans hsub)
      rw [displayFrom_description hb ((List.mem_erase_of_ne hba).mpr hmem),
        displayFrom_description hb hmem, hparts]
  | endless live b e hb hmem =>
    intro _
    rw [displayFrom_endless hb hmem, displayFrom_endless hb (mt List.mem_of_mem_erase hmem)]
  | other live b hb =>
    intro _
    exact displayFrom_other hb _ _

/-- A description is written from what its parts come to by themselves. -/
theorem display_of_description (hd : h.cell a = .description d) :
    h.display (.ref a) = d.writtenWith h.display := by
  have hself : h.display (.ref a) = d.writtenWith (h.displayFrom (h.addresses.erase a)) :=
    displayFrom_description hd (mem_addresses_of_description hd)
  have hparts : Truncates (h.display (.ref a)) (d.writtenWith h.display) := by
    rw [hself]
    apply Description.writtenWith_truncates
    intro v
    exact h.displayFrom_truncates _ v _ List.erase_sublist
  rcases hparts with he | he
  · -- one level more is no level more for a text without an end
    have hshown : h.displayFrom (h.addresses.erase a) = h.display := by
      funext v
      exact displayFrom_erase_of_endless hd he _ v (.refl _)
    rw [hself, hshown]
  · exact he

/-- The parts of a description that has a text have the texts that they have by themselves. -/
theorem display_description {s : String} (hd : h.cell a = .description d)
    (hs : h.display (.ref a) = .ok s) : d.writtenWith h.display = .ok s :=
  (display_of_description hd).symm.trans hs

end Heap

end Depict

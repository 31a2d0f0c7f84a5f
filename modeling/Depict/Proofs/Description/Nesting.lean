import Depict.Proofs.Show.Reach

/-!
# Descriptions inside descriptions

A description that is the value of an entry is written there as it is written by itself. So its text
may stand in its place, at some occurrences or at all of them, in any number of descriptions, and
every text stays what it was. Whether it leaves out missing values is a matter of its own flag.
-/
namespace Depict
open Relation List

/-- The second entry is the first, or has the text of the object in the first in its place. -/
inductive Entry.Replaced (h : Heap) : Entry → Entry → Prop
  | same (e : Entry) : Replaced h e e
  | text {b : Address} {s : String} (name : Value) (hs : h.display (.ref b) = .ok s) :
      Replaced h ⟨name, .ref b⟩ ⟨name, .text s⟩

/-- The second object is the first, or both are descriptions and differ only where entries of the
second have the texts of objects in their place. -/
inductive Cell.Replaced (h : Heap) : Cell → Cell → Prop
  | same (c : Cell) : Replaced h c c
  | description {es es' : List Entry} (label : Value) (omits : Bool)
      (hes : Forall₂ (Entry.Replaced h) es es') :
      Replaced h (.description ⟨label, es, omits⟩) (.description ⟨label, es', omits⟩)

/-- The second heap has the objects of the first, and in entries of its descriptions the texts of
objects may stand in their place. -/
def Heap.Replaced (h h' : Heap) : Prop :=
  Forall₂ (Cell.Replaced h) h.cells h'.cells

/-- No description holds itself, or an object that leads to it. -/
def Heap.Acyclic (h : Heap) : Prop :=
  ∀ a d, h.cell a = .description d → ¬ TransGen h.Holds a a

namespace Heap

/-- The value is looked at while the objects that are missing in the row are being written around it,
so writing each of them leads to the value. -/
structure Around (h : Heap) (live : List Address) (v : Value) : Prop where
  nodup : live.Nodup
  subset : live ⊆ h.addresses
  writes : ∀ b, v = .ref b → ∀ x ∈ h.addresses, x ∉ live → TransGen h.Writes x b

end Heap

variable {h h' : Heap} {live : List Address} {a b : Address} {v : Value} {d : Description}

namespace Heap.Around

theorem addresses (h : Heap) (v : Value) : h.Around h.addresses v :=
  ⟨h.nodup_addresses, List.Subset.refl _, fun _ _ _ hx hout => absurd hx hout⟩

theorem shown (ha : h.Around live (.ref a)) (hd : h.cell a = .description d) (hv : v ∈ d.shown) :
    h.Around (live.erase a) v where
  nodup := ha.nodup.erase a
  subset := List.Subset.trans erase_subset ha.subset
  writes := by
    rintro b rfl x hx hout
    have hab : h.Writes a b := ⟨d, hd, hv⟩
    by_cases hxa : x = a
    · rw [hxa]
      exact .single hab
    · exact .tail (ha.writes a rfl x hx fun hin => hout ((mem_erase_of_ne hxa).mpr hin)) hab

/-- A text that an object has by itself it also has while other descriptions are being written
around it. -/
theorem displayFrom_eq {s : String} (hb : h.Around live (.ref b))
    (hs : h.display (.ref b) = .ok s) : h.displayFrom live (.ref b) = .ok s := by
  rw [← hs]
  apply displayFrom_live hb.nodup h.nodup_addresses
  rintro c ⟨_, hb', hbc⟩
  cases hb'
  refine ⟨fun hc => hb.subset hc, fun hc => ?_⟩
  -- a description around the object is not one that the object leads to
  by_contra hout
  exact not_writes_self_of_display hs (.trans_right hbc (hb.writes _ rfl c hc hout))

end Heap.Around

section
variable {shown shown' : Value → Except Fault String} {e e' : Entry}

theorem Entry.Replaced.isNull (he : e.Replaced h e') : e'.isNull = e.isNull := by
  cases he <;> rfl

theorem Entry.Replaced.writtenWith (he : e.Replaced h e')
    (hname : shown' e.name = shown e.name) (hvalue : shown' e.value = shown e.value)
    (htext : ∀ s, shown' (.text s) = .ok s)
    (hown : ∀ b s, e.value = .ref b → h.display (.ref b) = .ok s → shown (.ref b) = .ok s) :
    e.writtenWith shown = e'.writtenWith shown' := by
  cases he with
  | same => exact Entry.writtenWith_congr hname.symm hvalue.symm
  | @text b s name hs =>
    have hvalue : Value.writtenWith shown (.ref b) = Value.writtenWith shown' (.text s) :=
      (hown b s rfl hs).trans (htext s).symm
    rw [Entry.writtenWith, Entry.writtenWith, hvalue, Value.runningWith_congr hname]

theorem Description.forall₂_visible {es' : List Entry}
    (hes : Forall₂ (Entry.Replaced h) d.entries es') :
    Forall₂ (Entry.Replaced h) d.visible (visible { d with entries := es' }) := by
  apply rel_filter _ hes
  intro e e' he
  simp only [he.isNull]

/-- A description is written the same with texts in the place of objects, if the objects that it
shows have the texts there that they have by themselves. -/
theorem Description.writtenWith_replaced {es' : List Entry}
    (hes : Forall₂ (Entry.Replaced h) d.entries es')
    (hshown : ∀ v ∈ d.shown, shown' v = shown v) (htext : ∀ s, shown' (.text s) = .ok s)
    (hown : ∀ b s, .ref b ∈ d.shown → h.display (.ref b) = .ok s → shown (.ref b) = .ok s) :
    writtenWith shown' { d with entries := es' } = d.writtenWith shown := by
  have hitems : d.visible.mapM (Entry.writtenWith shown) =
      (visible { d with entries := es' }).mapM (Entry.writtenWith shown') := by
    apply mapM_congr_forall₂
    apply Forall₂.imp _ ((forall₂_and_left _ _).mpr ⟨fun e he => he, forall₂_visible hes⟩)
    rintro e e' ⟨hmem, he⟩
    have hname := hshown _ (name_mem_shown hmem)
    have hvalue := value_mem_shown hmem
    apply he.writtenWith hname (hshown _ hvalue) htext
    intro b s hb
    exact hown b s (hb ▸ hvalue)
  have hlabel : d.label.runningWith shown' = d.label.runningWith shown :=
    Value.runningWith_congr (hshown _ mem_cons_self)
  rw [writtenWith, writtenWith, hitems, hlabel]

theorem Cell.Replaced.inspectsAs {c c' : Cell} (hc : c.Replaced h c') : c.InspectsAs c' := by
  cases hc with
  | same => exact .same c
  | description label omits hes => exact .description omits hes.length_eq.symm

end

namespace Heap

theorem Replaced.addresses (hr : h.Replaced h') : h'.addresses = h.addresses := by
  rw [Heap.addresses, Heap.addresses, Forall₂.length_eq hr]

theorem Replaced.cell (hr : h.Replaced h') (a : Address) : (h.cell a).Replaced h (h'.cell a) := by
  have hget : ∀ {cs cs' : List Cell}, Forall₂ (Cell.Replaced h) cs cs' → ∀ a,
      (cs.getD a stranger).Replaced h (cs'.getD a stranger) := by
    intro cs cs' hcs
    induction hcs with
    | nil => exact fun _ => .same _
    | cons hc _ ih =>
      intro a
      cases a with
      | zero => exact hc
      | succ a => exact ih a
  exact hget hr a

theorem Replaced.cell_eq (hr : h.Replaced h') (hd : ∀ d, h.cell a ≠ .description d) :
    h'.cell a = h.cell a := by
  have hc := hr.cell a
  generalize h.cell a = c at hc hd
  generalize h'.cell a = c' at hc
  cases hc with
  | same => rfl
  | description label omits hes => exact absurd rfl (hd _)

theorem Replaced.cell_description (hr : h.Replaced h') (hd : h.cell a = .description d) :
    ∃ es', h'.cell a = .description { d with entries := es' } ∧
      Forall₂ (Entry.Replaced h) d.entries es' := by
  have hc := hr.cell a
  rw [hd] at hc
  generalize h'.cell a = c' at hc
  cases hc with
  | same => exact ⟨d.entries, rfl, forall₂_same.mpr fun e _ => .same e⟩
  | description label omits hes => exact ⟨_, rfl, hes⟩

theorem Replaced.inspect (hr : h.Replaced h') (v : Value) : h'.inspect v = h.inspect v :=
  inspect_congr hr.addresses fun b _ => (hr.cell b).inspectsAs

theorem displayFrom_replaced (hr : h.Replaced h') (hlive : h.Around live v) :
    h'.displayFrom live v = h.displayFrom live v := by
  induction live, v using displayFrom_induct h with
  | atom live x => rw [displayFrom, displayFrom]
  | written live a d hd ha ih =>
    obtain ⟨es', hd', hes⟩ := hr.cell_description hd
    rw [displayFrom_description hd ha, displayFrom_description hd' ha]
    apply Description.writtenWith_replaced hes (fun v hv => ih v (hlive.shown hd hv))
    · exact fun s => h'.displayFrom_atom _ _
    · exact fun b s hb => (hlive.shown hd hb).displayFrom_eq
  | endless live a d hd ha =>
    obtain ⟨es', hd', -⟩ := hr.cell_description hd
    rw [displayFrom_endless hd ha, displayFrom_endless hd' ha]
  | other live a hd =>
    exact displayFrom_of_other hd (hr.cell_eq hd) (hr.inspect _) (fun v _ => hr.inspect v) live

theorem Acyclic.not_writes_self (ha : h.Acyclic) (hd : h.cell a = .description d) :
    ¬ TransGen h.Writes a a :=
  fun haa => ha a d hd (haa.lift id fun _ _ => Writes.holds)

/-- What an entry of a description holds is written the same under either flag of that description. -/
theorem writtenValue_set_flag (ha : h.Acyclic) (hd : h.cell a = .description d)
    (hb : .ref b ∈ (h.cell a).parts) (omits : Bool) :
    (h.set a (.description { d with omitsNulls := omits })).writtenValue (.ref b) =
      h.writtenValue (.ref b) := by
  have haddr : (h.set a (.description { d with omitsNulls := omits })).addresses = h.addresses := by
    simp [Heap.addresses, set]
  change display _ _ = display _ _
  rw [display, display, haddr]
  apply displayFrom_congr haddr
  rintro c ⟨_, hb', hbc⟩
  cases hb'
  apply cell_set_of_ne
  -- the description of the flag is not one that its part leads to
  rintro rfl
  exact ha a d hd (.head' hb hbc)

/-- The text of an object that is the value of an entry may stand in its place, in any entries of
any descriptions: every text, and every failure, stays as it was. If no description holds itself,
then a description is written from the texts of its parts; a description among these shows its own
entries as its own flag says, and the flag of the outer one neither hides nor changes it. -/
theorem display_replaced (h : Heap) :
    (∀ h', h.Replaced h' → ∀ v, h'.display v = h.display v) ∧
    (h.Acyclic → ∀ a d, h.cell a = .description d →
      h.display (.ref a) = d.writtenWith h.display ∧
      ∀ e ∈ d.entries, ∀ b inner, e.value = .ref b → h.cell b = .description inner →
        h.writtenValue e.value = inner.writtenWith h.display ∧
        ∀ omits, e ∈ Description.visible { d with omitsNulls := omits } ∧
          (h.set a (.description { d with omitsNulls := omits })).writtenValue e.value =
            h.writtenValue e.value) := by
  constructor
  · intro h' hr v
    rw [display, display, hr.addresses]
    exact displayFrom_replaced hr (.addresses h v)
  · intro ha a d hd
    refine ⟨display_eq_writtenWith hd (ha.not_writes_self hd), fun e he b inner hb hinner => ?_⟩
    have hpart : .ref b ∈ (h.cell a).parts := by
      rw [hd, ← hb]
      exact mem_cons_of_mem _ (mem_flatMap.mpr ⟨e, he, by simp⟩)
    rw [hb]
    refine ⟨display_eq_writtenWith hinner (ha.not_writes_self hinner), fun omits => ⟨?_, ?_⟩⟩
    · exact mem_filter.mpr ⟨he, by simp [Entry.isNull, hb, Value.isNull]⟩
    · exact writtenValue_set_flag ha hd hpart omits

/-- Objects that hold only objects made before them. -/
theorem acyclic_of_lt (hlt : ∀ a b, h.Holds a b → b < a) : h.Acyclic :=
  fun a _ _ => not_transGen_self_of_lt hlt a

/-- A description that leaves out its missing value, one that holds it, and one that holds both and
writes its own missing value. -/
def shared : Heap :=
  ⟨[.description ⟨.text "M", [⟨.text "x", .null⟩, ⟨.null, .text "1"⟩], true⟩,
    .description ⟨.text "K", [⟨.text "m", .ref 0⟩], false⟩,
    .description ⟨.text "L", [⟨.text "a", .ref 0⟩, ⟨.null, .ref 1⟩, ⟨.text "z", .null⟩], false⟩]⟩

/-- The same with the text of the first description in its place in the second. -/
def sharedOnce : Heap :=
  shared.set 1 (.description ⟨.text "K", [⟨.text "m", .text "M\x7b1\x7d"⟩], false⟩)

theorem acyclic_shared : shared.Acyclic := by
  apply acyclic_of_lt
  intro a b hab
  match a with
  | 0 => simp [Holds, shared, Heap.cell, Cell.parts, Value.text] at hab
  | 1 =>
    have hb : b = 0 := by simpa [Holds, shared, Heap.cell, Cell.parts, Value.text] using hab
    rw [hb]
    exact Nat.zero_lt_one
  | 2 =>
    have hb : b = 0 ∨ b = 1 := by
      simpa [Holds, shared, Heap.cell, Cell.parts, Value.text] using hab
    obtain rfl | rfl := hb
    · exact Nat.zero_lt_two
    · exact Nat.one_lt_two
  | a + 3 => simp [Holds, shared, Heap.cell, Cell.parts, stranger] at hab

theorem display_shared : shared.display (.ref 0) = .ok "M\x7b1\x7d" := by
  have hd : shared.cell 0 =
      .description ⟨.text "M", [⟨.text "x", .null⟩, ⟨.null, .text "1"⟩], true⟩ := rfl
  rw [display_eq_writtenWith hd (acyclic_shared.not_writes_self hd), Description.writtenWith_eq_ok]
  refine ⟨["1"], "M", ?_, rfl, rfl⟩
  simp [Description.visible, Entry.isNull, Value.isNull, Value.null, Value.text,
    Entry.writtenWith, Value.writtenWith, Value.isPrimitive, Atom.isPrimitive, display]
  rfl

theorem replaced_sharedOnce : shared.Replaced sharedOnce :=
  .cons (.same _) (.cons (.description _ _ (.cons (.text _ display_shared) .nil))
    (.cons (.same _) .nil))

theorem display_replaced_shared :
    shared.Replaced sharedOnce ∧ sharedOnce.display (.ref 2) = shared.display (.ref 2) ∧
    shared.Acyclic ∧
    (shared.set 2 (.description ⟨.text "L",
        [⟨.text "a", .ref 0⟩, ⟨.null, .ref 1⟩, ⟨.text "z", .null⟩], true⟩)).writtenValue (.ref 0) =
      .ok "M\x7b1\x7d" := by
  have h := display_replaced shared
  have houter := (h.2 acyclic_shared 2 _ rfl).2 ⟨.text "a", .ref 0⟩ mem_cons_self 0 _ rfl rfl
  exact ⟨replaced_sharedOnce, h.1 _ replaced_sharedOnce _, acyclic_shared,
    (houter.2 true).2.trans display_shared⟩

end Heap

end Depict

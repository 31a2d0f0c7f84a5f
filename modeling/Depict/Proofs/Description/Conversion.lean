import Depict.Proofs.Description.Appending
import Depict.Proofs.Description.Growth

/-!
# Conversion when adding and when writing

Whether a value is primitive is decided twice: when it is added, and again when what was kept of it
is written. The two decisions agree. A text that was kept is written as it stands, and any other
value was kept as itself, so an entry is written from what is kept of it as it would be from the
value that was added.
-/
namespace Depict

/-- What is stored for an added entry: a value that is not primitive as itself, a primitive one as
its text, so that nothing stored is primitive and only the missing value is stored as missing; and
in every heap it is written as the added one would be. -/
structure Entry.StoredAs (added kept : Entry) : Prop extends Entry.KeptAs added kept where
  converted : added.value.isPrimitive = true → ∃ text, kept.value = .text text
  settled : kept.value.isPrimitive = false
  missing : kept.value = .null ↔ added.value = .null
  written : ∀ h : Heap, h.writtenEntry kept = h.writtenEntry added

theorem Value.recorded_of_isPrimitive {v k : Value} (hv : v.isPrimitive = true)
    (hk : v.recorded = .ok k) : ∃ text, k = .text text := by
  cases v with
  | ref a => cases hv
  | atom x =>
    have hx : (atom x).recorded = x.primitiveText.map Value.text := if_pos hv
    obtain ⟨text, -, rfl⟩ := map_eq_ok.mp (hx.symm.trans hk)
    exact ⟨text, rfl⟩

theorem Entry.storedAs_of_recorded {added kept : Entry} (hk : added.recorded = .ok kept) :
    added.StoredAs kept := by
  have hkept := keptAs_of_recorded hk
  have hconverted : added.value.isPrimitive = true → ∃ text, kept.value = .text text := fun hp =>
    Value.recorded_of_isPrimitive hp (value_of_recorded hk)
  refine ⟨hkept, hconverted, ?_, ?_, fun h => (Heap.writtenEntry_of_recorded hk).2⟩
  · cases hp : added.value.isPrimitive with
    | true =>
      obtain ⟨text, ht⟩ := hconverted hp
      rw [ht]
      rfl
    | false => rw [(hkept.shared hp).1, hp]
  · rw [← Value.isNull_iff, ← Value.isNull_iff]
    exact Bool.coe_iff_coe.mpr (isNull_of_recorded hk)

/-- A description with one entry is written as that entry between braces behind the label. -/
theorem Description.writtenWith_sole (shown : Value → Except Fault String) (label : Value)
    (e : Entry) : ((Description.empty label).push e).writtenWith shown = do
      let item ← e.writtenWith shown
      let label ← label.runningWith shown
      return label ++ "\x7b" ++ item ++ "\x7d" := by
  have hvisible : ((Description.empty label).push e).visible = [e] := rfl
  rw [Description.writtenWith, hvisible, List.mapM_cons, List.mapM_nil]
  cases e.writtenWith shown <;> rfl

namespace Heap
variable {h h' : Heap} {a b : Address} {d : Description} {s : Action} {e : Event}

/-- A step that leaves a description where there was none has begun it from a label. -/
theorem begun_of_perform (he : (Event.act s).isProper = true) (hs : h.perform s = .ok (h', b))
    (hd : h'.cell a = .description d) (hnone : ∀ d, h.cell a ≠ .description d) :
    ∃ label, d = .empty label := by
  cases change_perform hs with
  | made c _ hc =>
    rcases h.cell_alloc_cases a c with hcell | hcell
    · exact absurd (hcell.symm.trans hd) (hnone d)
    · obtain rfl : c = .description d := hcell.symm.trans hd
      rcases hc with rfl | ⟨label, d', hd', heq⟩
      · cases he
      · obtain ⟨label', -, rfl⟩ := map_eq_ok.mp hd'
        exact ⟨label', Cell.description.inj heq⟩
  | @called target d₀ d₁ hd₀ _ _ =>
    rcases h.cell_set_cases a target (.description d₁) with hcell | ⟨rfl, -⟩
    · exact absurd (hcell.symm.trans hd) (hnone d)
    · exact absurd hd₀ (hnone d₀)
  | @replaced target c c' _ _ _ hc' =>
    rcases h.cell_set_cases a target c' with hcell | ⟨-, hcell⟩
    · exact absurd (hcell.symm.trans hd) (hnone d)
    · exact absurd (hcell.symm.trans hd) (hc' d)
  | kept _ => exact absurd hd (hnone d)

theorem follow_concat (h : Heap) (es : List Event) (e : Event) :
    h.follow (es ++ [e]) = ((h.follow es).handle e).2 := by
  simp [follow, List.foldl_append]

/-- Every description was begun from a label alone, and events led from there to what it is now. -/
theorem Reachable.exists_begun (hr : h.Reachable) (hd : h.cell a = .description d) :
    ∃ (h₀ : Heap) (label : Value) (es : List Event), h₀.Reachable ∧
      h₀.cell a = .description (.empty label) ∧ h₀.follow es = h := by
  induction hr generalizing d with
  | empty => cases hd
  | @step h e hr he ih =>
    by_cases hbefore : ∃ d, h.cell a = .description d
    · obtain ⟨d₀, hd₀⟩ := hbefore
      obtain ⟨h₀, label, es, hr₀, hbegun, hes⟩ := ih hd₀
      exact ⟨h₀, label, es ++ [e], hr₀, hbegun, by rw [follow_concat, hes]⟩
    · have hnone : ∀ d, h.cell a ≠ .description d := not_exists.mp hbefore
      have hbegun : ∃ label, d = .empty label := by
        cases e with
        | ask target q => exact absurd hd (hnone d)
        | act s =>
          cases hs : h.perform s with
          | error f =>
            rw [handle_act_of_error hs] at hd
            exact absurd hd (hnone d)
          | ok r =>
            rw [handle_act_of_ok hs] at hd
            exact begun_of_perform he hs hd hnone
      obtain ⟨label, rfl⟩ := hbegun
      exact ⟨_, label, [], .step hr he, hd, rfl⟩

/-- A description that got one entry is written as its label with, between braces, what the entry is
written as if its value is converted only then; if that fails, so does the description, and in the
same way. An entry that does not lead to the description is written alike before it is added and
after. In every description that events lead to, each entry that was added is stored in its place:
nothing that is stored is primitive, exactly the missing value is stored as missing, and a value
that is not primitive is stored as it is. -/
theorem display_sole_entry :
    (∀ (h : Heap) a label e entry answer, h.cell a = .description (.empty label) →
      e.addition? a = some entry → (h.handle e).1 = .ok answer →
      let h' := (h.handle e).2
      (h'.display (.ref a) = do
        let item ← h'.writtenEntry entry
        let label ← h'.runningText label
        return label ++ "\x7b" ++ item ++ "\x7d") ∧
      (∀ text, label = .text text → h'.display (.ref a) =
        (h'.writtenEntry entry).map fun item => text ++ "\x7b" ++ item ++ "\x7d") ∧
      (¬ entry.name.LeadsTo h.Holds a → ¬ entry.value.LeadsTo h.Holds a →
        h'.writtenEntry entry = h.writtenEntry entry)) ∧
    ∀ (h : Heap) a d, h.Reachable → h.cell a = .description d →
      ∃ (h₀ : Heap) (label : Value) (es : List Event), h₀.Reachable ∧
        h₀.cell a = .description (.empty label) ∧ h₀.follow es = h ∧
        List.Forall₂ Entry.StoredAs (h₀.added a es) d.entries := by
  constructor
  · intro h a label e entry answer hd hadd hok h'
    obtain ⟨k, hk, hnext⟩ := handle_of_addition hd hadd hok
    replace hnext : h' = h.set a (.description ((Description.empty label).push k)) := hnext
    have hcell : h'.cell a = .description ((Description.empty label).push k) := by
      rw [hnext, cell_set_self _ (lt_length_of_description hd)]
    have hdisplay : h'.display (.ref a) = do
        let item ← h'.writtenEntry entry
        let label ← h'.runningText label
        return label ++ "\x7b" ++ item ++ "\x7d" := by
      rw [display_of_description hcell, Description.writtenWith_sole,
        ← (writtenEntry_of_recorded (h := h') hk).2]
      rfl
    refine ⟨hdisplay, fun text htext => ?_, fun hname hvalue => ?_⟩
    · rw [hdisplay, htext]
      cases h'.writtenEntry entry <;> rfl
    · rw [hnext]
      exact Entry.writtenWith_congr (display_set_of_not_leadsTo hname _)
        (display_set_of_not_leadsTo hvalue _)
  · intro h a d hr hd
    obtain ⟨h₀, label, es, hr₀, hbegun, rfl⟩ := hr.exists_begun hd
    obtain ⟨kept, hkept, hcell⟩ := cell_follow es hbegun
    rw [hd] at hcell
    rw [Cell.description.inj hcell]
    refine ⟨h₀, label, es, hr₀, hbegun, rfl, ?_⟩
    exact (forall₂_of_mapM hkept).imp fun _ _ => Entry.storedAs_of_recorded

/-- A number of a derived type that says its own text. -/
def ranked : Value :=
  .atom (.derivedInt 3 ⟨"Rank", .given "third"⟩)

/-- The number is stored as itself and its text is looked up when it is written, while the truth
value was stored as a text. -/
theorem display_sole_entry_ranked :
    (lone.handle (.act (.add 0 (.text "rank") ranked))).2.display (.ref 0) =
        .ok "L\x7brank=third\x7d" ∧
      ∃ added, List.Forall₂ Entry.StoredAs added
        [⟨.text "b", .text "true"⟩, ⟨.text "rank", ranked⟩] := by
  obtain ⟨hsole, hstored⟩ := display_sole_entry
  constructor
  · obtain ⟨-, htext, -⟩ := hsole lone 0 (.text "L") (.act (.add 0 (.text "rank") ranked))
      ⟨.text "rank", ranked⟩ (.object 0) rfl rfl rfl
    have hitem : (lone.handle (.act (.add 0 (.text "rank") ranked))).2.writtenEntry
        ⟨.text "rank", ranked⟩ = .ok "rank=third" :=
      bind_eq_ok.mpr ⟨"rank", rfl, bind_eq_ok.mpr ⟨"third", displayFrom_atom _ _ _, rfl⟩⟩
    rw [htext "L" rfl, hitem]
    rfl
  · have hreachable : (counted.handle (.act (.add 0 (.text "rank") ranked))).2.Reachable :=
      .step (.step (.step .empty rfl) rfl) rfl
    obtain ⟨h₀, label, es, -, -, -, hall⟩ := hstored _ 0 ⟨.text "L",
      [⟨.text "b", .text "true"⟩, ⟨.text "rank", ranked⟩], false⟩ hreachable rfl
    exact ⟨h₀.added 0 es, hall⟩

end Heap

end Depict

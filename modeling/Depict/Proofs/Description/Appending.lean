import Depict.Proofs.Description.Faults
import Depict.Proofs.Description.Recording
import Depict.Proofs.Show.Reach

/-!
# One more entry

A description that nothing in it leads back to has the text of before with the text of the new entry
put before the closing brace, behind a comma and a space unless no entry was visible. Telling it to
leave out missing values makes it what it would be if none of these had been added.
-/
namespace Depict
open Relation

theorem followed_append (xs ys : List String) : followed (xs ++ ys) = followed xs ++ followed ys := by
  induction xs with
  | nil => simp [followed]
  | cons x xs ih => simp [followed, ih, String.append_assoc]

theorem joined_concat {items : List String} (h : items ≠ []) (t : String) :
    joined (items ++ [t]) = joined items ++ ", " ++ t := by
  cases items with
  | nil => exact absurd rfl h
  | cons s rest => simp [joined_cons, followed_append, followed, String.append_assoc]

namespace Value
variable {v k : Value} {r : Address → Address → Prop} {b : Address}

theorem eq_ref_of_recorded (hv : v.recorded = .ok (.ref b)) : v = .ref b := by
  cases v with
  | ref c => exact Except.ok.inj hv
  | atom x =>
    change (if x.isPrimitive then x.primitiveText.map Value.text else .ok (.atom x)) = _ at hv
    split at hv
    · obtain ⟨s, -, hs⟩ := map_eq_ok.mp hv
      cases hs
    · cases hv

/-- What is kept of a value leads nowhere that the value does not lead to. -/
theorem leadsTo_of_recorded (hk : v.recorded = .ok k) (hb : k.LeadsTo r b) : v.LeadsTo r b := by
  obtain ⟨c, rfl, hc⟩ := hb
  exact ⟨c, eq_ref_of_recorded hk, hc⟩

end Value

namespace Entry
variable {e k : Entry}

theorem name_of_recorded (hk : e.recorded = .ok k) : k.name = e.name := by
  obtain ⟨kept, -, rfl⟩ := map_eq_ok.mp hk
  rfl

theorem value_of_recorded (hk : e.recorded = .ok k) : e.value.recorded = .ok k.value := by
  obtain ⟨kept, hkept, rfl⟩ := map_eq_ok.mp hk
  exact hkept

theorem isNull_of_recorded (hk : e.recorded = .ok k) : k.isNull = e.isNull :=
  (Heap.writtenEntry_of_recorded (h := .empty) hk).1

end Entry

theorem Cell.mem_parts_push_iff {d : Description} {e : Entry} {v : Value} :
    v ∈ (description (d.push e)).parts ↔ v ∈ (description d).parts ∨ v = e.name ∨ v = e.value := by
  simp [parts, Description.push, or_assoc]

namespace Description
variable {d d' : Description} {e : Entry} {shown : Value → Except Fault String}

theorem hides_of_recorded {k : Entry} (hk : e.recorded = .ok k) : d.Hides k ↔ d.Hides e := by
  rw [Hides, Hides, ← Value.isNull_iff, ← Value.isNull_iff]
  change _ ∧ k.isNull = true ↔ _ ∧ e.isNull = true
  rw [Entry.isNull_of_recorded hk]

theorem visible_eq_nil_iff : d.visible = [] ↔ ∀ k ∈ d.entries, d.Hides k := by
  simp [List.eq_nil_iff_forall_not_mem, mem_visible_iff]

theorem writtenWith_push_of_hides (he : d.Hides e) :
    (d.push e).writtenWith shown = d.writtenWith shown := by
  have hvisible := visible_push_of_hidden he.1 (Value.isNull_iff.mpr he.2)
  rw [writtenWith, writtenWith, hvisible]
  rfl

/-- The entry is written behind the others, with a separator if there are any. -/
theorem writtenWith_push {s t : String} (he : ¬ d.Hides e) (hs : d.writtenWith shown = .ok s)
    (ht : e.writtenWith shown = .ok t) : ∃ body, s = body ++ "\x7d" ∧
      ((∀ k ∈ d.entries, d.Hides k) →
        (d.push e).writtenWith shown = .ok (body ++ t ++ "\x7d")) ∧
      ((∃ k ∈ d.entries, ¬ d.Hides k) →
        (d.push e).writtenWith shown = .ok (body ++ ", " ++ t ++ "\x7d")) := by
  have hvisible : (d.push e).visible = d.visible ++ [e] := by
    apply visible_push_of_shown
    rw [← Bool.not_eq_true, Bool.and_eq_true]
    exact fun h => he ⟨h.1, Value.isNull_iff.mp h.2⟩
  obtain ⟨items, label, hitems, hlabel, rfl⟩ := writtenWith_eq_ok.mp hs
  have hmore : (d.push e).visible.mapM (Entry.writtenWith shown) = .ok (items ++ [t]) := by
    rw [hvisible, List.mapM_append, hitems, List.mapM_cons, ht]
    rfl
  refine ⟨label ++ "\x7b" ++ joined items, rfl, fun hnone => ?_, fun hsome => ?_⟩
  · rw [visible_eq_nil_iff.mpr hnone] at hitems
    refine writtenWith_eq_ok.mpr ⟨_, label, hmore, hlabel, ?_⟩
    rw [← Except.ok.inj hitems]
    simp [joined]
  · have hne : items ≠ [] := by
      intro hnil
      cases hv : d.visible with
      | nil =>
        obtain ⟨k, hk, hshown⟩ := hsome
        exact hshown (visible_eq_nil_iff.mp hv k hk)
      | cons k ks =>
        rw [hv, hnil] at hitems
        obtain ⟨_, _, -, -, hcons⟩ := mapM_cons_eq_ok.mp hitems
        cases hcons
    refine writtenWith_eq_ok.mpr ⟨_, label, hmore, hlabel, ?_⟩
    rw [joined_concat hne]
    simp [String.append_assoc]

/-- The second description has the label of the first, and of its entries those with a value. -/
structure Stripped (d d' : Description) : Prop where
  label : d'.label = d.label
  entries : d'.entries = d.entries.filter fun e => !e.isNull

namespace Stripped

theorem push_of_isNull (h : d.Stripped d') (he : e.isNull = true) : (d.push e).Stripped d' := by
  refine ⟨h.label, ?_⟩
  simp [push, he, h.entries]

theorem push (h : d.Stripped d') (he : e.isNull = false) : (d.push e).Stripped (d'.push e) := by
  refine ⟨h.label, ?_⟩
  simp [Description.push, he, h.entries]

theorem parts (h : d.Stripped d') : (Cell.description d').parts ⊆ (Cell.description d).parts := by
  rw [Cell.parts, Cell.parts, h.label, h.entries]
  apply List.cons_subset_cons
  intro v hv
  obtain ⟨e, he, hv⟩ := List.mem_flatMap.mp hv
  exact List.mem_flatMap.mpr ⟨e, List.mem_of_mem_filter he, hv⟩

theorem writtenWith (h : d.Stripped d') (shown : Value → Except Fault String) :
    d.omitNulls.writtenWith shown = d'.writtenWith shown := by
  have hvisible : d'.visible = d.omitNulls.visible := by
    rw [visible, visible, h.entries, List.filter_filter]
    apply List.filter_congr
    intro e _
    cases e.isNull <;> simp [omitNulls]
  rw [Description.writtenWith, Description.writtenWith, hvisible, h.label]
  rfl

end Stripped

end Description

/-- Whether an event is to add an entry without a value to the description at an address. -/
def Event.addsNull (a : Address) (e : Event) : Bool :=
  (e.addition? a).any Entry.isNull

namespace Event
variable {a : Address} {d d' : Description}

/-- An event does one thing to every description that may stand at an address. -/
theorem changed_cases (a : Address) (e : Event) :
    (∃ entry k, e.addition? a = some entry ∧ entry.recorded = .ok k ∧
      ∀ d, e.changed a d = d.push k) ∨
    (∀ d, e.changed a d = d) ∨
    (e.addition? a = none ∧ ∀ d, e.changed a d = d.omitNulls) := by
  cases e with
  | ask target q => exact .inr (.inl fun d => rfl)
  | act s =>
    by_cases hon : (act s).isOn a = true
    · cases s with
      | add target name value =>
        obtain rfl : target = a := by simpa [isOn] using hon
        by_cases hname : name = .null
        · refine .inr (.inl fun d => ?_)
          rw [changed, Action.applied, if_pos rfl, hname, Description.add_null]
        · cases hr : value.recorded with
          | error f =>
            refine .inr (.inl fun d => ?_)
            rw [changed, Action.applied, if_pos rfl, Description.add_of_ne_null hname,
              Description.record_of_error hr]
          | ok kept =>
            refine .inl ⟨_, ⟨name, kept⟩, if_pos rfl, map_eq_ok.mpr ⟨kept, hr, rfl⟩, fun d => ?_⟩
            rw [changed, Action.applied, if_pos rfl, Description.add_of_ne_null hname,
              Description.record_of_ok hr]
      | addValue target value =>
        obtain rfl : target = a := by simpa [isOn] using hon
        cases hr : value.recorded with
        | error f =>
          refine .inr (.inl fun d => ?_)
          rw [changed, Action.applied, if_pos rfl, Description.addValue,
            Description.record_of_error hr]
        | ok kept =>
          refine .inl ⟨_, ⟨.null, kept⟩, if_pos rfl, map_eq_ok.mpr ⟨kept, hr, rfl⟩, fun d => ?_⟩
          rw [changed, Action.applied, if_pos rfl, Description.addValue,
            Description.record_of_ok hr]
      | omitNulls target =>
        obtain rfl : target = a := by simpa [isOn] using hon
        refine .inr (.inr ⟨rfl, fun d => ?_⟩)
        rw [changed, Action.applied, if_pos rfl]
      | _ => cases hon
    · refine .inr (.inl fun d => ?_)
      rw [changed, applied_of_not_isOn (by simpa using hon)]

theorem isOn_of_addition? {e : Event} {entry : Entry} (h : e.addition? a = some entry) :
    e.isOn a = true := by
  by_contra hoff
  rw [addition?_of_not_isOn (by simpa using hoff)] at h
  cases h

theorem isOn_of_addsNull {e : Event} (h : e.addsNull a = true) : e.isOn a = true := by
  cases hadd : e.addition? a with
  | none => simp [addsNull, hadd] at h
  | some entry => exact isOn_of_addition? hadd

/-- A call that is to add a missing value changes nothing but what is stripped. -/
theorem stripped_of_addsNull {e : Event} (h : d.Stripped d') (he : e.addsNull a = true) :
    (e.changed a d).Stripped d' := by
  rcases e.changed_cases a with ⟨entry, k, hadd, hk, hchanged⟩ | hchanged | ⟨hadd, -⟩
  · rw [hchanged]
    apply h.push_of_isNull
    rw [Entry.isNull_of_recorded hk]
    simpa [addsNull, hadd] using he
  · rw [hchanged]
    exact h
  · simp [addsNull, hadd] at he

/-- Any other event keeps the one description stripped of the other. -/
theorem stripped_of_not_addsNull {e : Event} (h : d.Stripped d') (he : e.addsNull a = false) :
    (e.changed a d).Stripped (e.changed a d') := by
  rcases e.changed_cases a with ⟨entry, k, hadd, hk, hchanged⟩ | hchanged | ⟨-, hchanged⟩
  · rw [hchanged, hchanged]
    apply h.push
    rw [Entry.isNull_of_recorded hk]
    simpa [addsNull, hadd] using he
  · rw [hchanged, hchanged]
    exact h
  · rw [hchanged, hchanged]
    exact ⟨h.label, h.entries⟩

/-- So a run without the calls that add missing values strips the description of these. -/
theorem stripped_foldl (a : Address) (es : List Event) : ∀ {d d' : Description}, d.Stripped d' →
    (es.foldl (changed a) d).Stripped ((es.filter fun e => !e.addsNull a).foldl (changed a) d') := by
  induction es with
  | nil =>
    intro d d' h
    exact h
  | cons e es ih =>
    intro d d' h
    cases he : e.addsNull a with
    | true =>
      rw [List.filter_cons_of_neg (by simp [he]), List.foldl_cons]
      exact ih (stripped_of_addsNull h he)
    | false =>
      rw [List.filter_cons_of_pos (by simp [he]), List.foldl_cons, List.foldl_cons]
      exact ih (stripped_of_not_addsNull h he)

end Event

namespace Heap
variable {h : Heap} {a : Address} {d d' : Description} {v : Value} {e : Event}

/-- What does not lead to an object comes to the same whatever the object is. -/
theorem display_set_of_not_leadsTo (hv : ¬ v.LeadsTo h.Holds a) (c : Cell) :
    (h.set a c).display v = h.display v := by
  have haddr : (h.set a c).addresses = h.addresses := by simp [Heap.addresses, set]
  rw [display, display, haddr]
  apply displayFrom_congr haddr
  intro b hb
  apply cell_set_of_ne
  rintro rfl
  exact hv hb

theorem display_set_description (ha : a < h.cells.length)
    (hparts : ∀ v ∈ (Cell.description d').parts, ¬ v.LeadsTo h.Holds a) :
    (h.set a (.description d')).display (.ref a) = d'.writtenWith h.display := by
  have hd' := cell_set_self (.description d') ha
  rw [display_of_description hd']
  apply Description.writtenWith_congr
  intro v hv
  apply display_set_of_not_leadsTo
  apply hparts
  have hpart := mem_parts_of_mem_shown hd' hv
  rwa [hd'] at hpart

theorem handle_of_addition {entry : Entry} {answer : Answer} (hd : h.cell a = .description d)
    (hadd : e.addition? a = some entry) (hok : (h.handle e).1 = .ok answer) :
    ∃ k, entry.recorded = .ok k ∧ (h.handle e).2 = h.set a (.description (d.push k)) := by
  have hset := handle_eq_set hd (Event.isOn_of_addition? hadd)
  rcases cell_handle e hd with ⟨entry', k, -, hadd', -, hk, -, hcell⟩ | ⟨hnone, -⟩ | ⟨hkeep, -⟩
  · rw [hadd] at hadd'
    rw [hcell] at hset
    exact ⟨k, Option.some.inj hadd' ▸ hk, hset⟩
  · rw [hadd] at hnone
    cases hnone
  · rcases hkeep with hnone | ⟨f, hf⟩
    · rw [hadd] at hnone
      cases hnone
    · rw [hok] at hf
      cases hf

/-- A run without the calls that add missing values to a description leaves the same of everything
else, and the description stripped of these. -/
theorem follow_filter_addsNull {label : Value} (es : List Event)
    (hd : h.cell a = .description (.empty label)) : ∃ d d', d.Stripped d' ∧
      (h.follow es).cell a = .description d ∧
      h.follow (es.filter fun e => !e.addsNull a) = (h.follow es).set a (.description d') := by
  have hothers : (es.filter fun e => !e.addsNull a).filter (fun e => !e.isOn a) =
      es.filter fun e => !e.isOn a := by
    rw [List.filter_filter]
    apply List.filter_congr
    intro e _
    cases he : e.addsNull a with
    | true => simp [Event.isOn_of_addsNull he]
    | false => simp
  have hcalls : (es.filter fun e => !e.addsNull a).filter (·.isOn a) =
      (es.filter (·.isOn a)).filter fun e => !e.addsNull a := List.filter_comm _ _ _
  have hstart : (Description.empty label).Stripped (.empty label) := ⟨rfl, rfl⟩
  have hes := follow_eq_set_changed es hd
  obtain ⟨kept, -, hcell⟩ := cell_follow es hd
  refine ⟨_, _, Event.stripped_foldl a (es.filter (·.isOn a)) hstart, ?_, ?_⟩
  · rw [hes, cell_set_self]
    have hlt := lt_length_of_description hcell
    rw [hes] at hlt
    simpa [set] using hlt
  · rw [follow_eq_set_changed _ hd, hothers, hcalls, hes, set_set]

/-- Nothing in a description leads back to it, nor does the entry that a call adds. If the entry is
left out, the text stays; otherwise it is put before the closing brace, and a comma and a space before
it exactly if there is an entry that is not left out. A description that is told to leave out missing
values comes to what it comes to if none was ever added. -/
theorem display_addition (h : Heap) (a : Address) (d : Description) (hd : h.cell a = .description d)
    (hself : ∀ v ∈ (h.cell a).parts, ¬ v.LeadsTo h.Holds a) :
    (∀ e entry answer s, e.addition? a = some entry → (h.handle e).1 = .ok answer →
      ¬ entry.name.LeadsTo h.Holds a → ¬ entry.value.LeadsTo h.Holds a →
      h.display (.ref a) = .ok s →
      (d.Hides entry → (h.handle e).2.display (.ref a) = .ok s) ∧
      ∀ t, ¬ d.Hides entry → h.writtenEntry entry = .ok t → ∃ body, s = body ++ "\x7d" ∧
        ((∀ k ∈ d.entries, d.Hides k) →
          (h.handle e).2.display (.ref a) = .ok (body ++ t ++ "\x7d")) ∧
        ((∃ k ∈ d.entries, ¬ d.Hides k) →
          (h.handle e).2.display (.ref a) = .ok (body ++ ", " ++ t ++ "\x7d"))) ∧
    ∀ (h₀ : Heap) label es, h₀.cell a = .description (.empty label) → h₀.follow es = h →
      (h.handle (.act (.omitNulls a))).2.display (.ref a) =
        (h₀.follow (es.filter fun e => !e.addsNull a)).display (.ref a) := by
  have ha := lt_length_of_description hd
  rw [hd] at hself
  refine ⟨fun e entry answer s hadd hok hname hvalue hs => ?_, fun h₀ label es hd₀ hes => ?_⟩
  · obtain ⟨k, hk, hnext⟩ := handle_of_addition hd hadd hok
    have hwritten : h.writtenEntry k = h.writtenEntry entry := (writtenEntry_of_recorded hk).2
    have hhides : d.Hides k ↔ d.Hides entry := Description.hides_of_recorded hk
    have hparts : ∀ v ∈ (Cell.description (d.push k)).parts, ¬ v.LeadsTo h.Holds a := by
      intro v hv
      rcases Cell.mem_parts_push_iff.mp hv with hv | rfl | rfl
      · exact hself v hv
      · rwa [Entry.name_of_recorded hk]
      · exact mt (Value.leadsTo_of_recorded (Entry.value_of_recorded hk)) hvalue
    have hbefore := display_description hd hs
    rw [hnext, display_set_description ha hparts]
    refine ⟨fun hhide => ?_, fun t hshow ht => ?_⟩
    · rw [Description.writtenWith_push_of_hides (hhides.mpr hhide)]
      exact hbefore
    · exact Description.writtenWith_push (mt hhides.mp hshow) hbefore (hwritten.trans ht)
  · subst hes
    obtain ⟨d₁, d', hstripped, hcell, hrun⟩ := follow_filter_addsNull es hd₀
    obtain rfl : d = d₁ := Cell.description.inj (hd.symm.trans hcell)
    have hflag : ((h₀.follow es).handle (.act (.omitNulls a))).2 =
        (h₀.follow es).set a (.description d.omitNulls) := by
      rw [handle_act_of_ok (perform_omitNulls hd)]
    have hparts : ∀ v ∈ (Cell.description d').parts, ¬ v.LeadsTo (h₀.follow es).Holds a := by
      intro v hv
      exact hself v (hstripped.parts hv)
    have hflagged : ∀ v ∈ (Cell.description d.omitNulls).parts,
        ¬ v.LeadsTo (h₀.follow es).Holds a := hself
    rw [hrun, hflag, display_set_description ha hflagged, display_set_description ha hparts]
    exact hstripped.writtenWith _

/-- A description with an entry that is left out and one whose text is empty. -/
def barely : Heap :=
  lone.follow [.act (.add 0 (.text "x") .null), .act (.addValue 0 (.text "")), .act (.omitNulls 0)]

theorem cell_barely :
    barely.cell 0 = .description ⟨.text "L", [⟨.text "x", .null⟩, ⟨.null, .text ""⟩], true⟩ :=
  rfl

theorem display_barely : barely.display (.ref 0) = .ok "L\x7b\x7d" := by
  rw [display_of_description cell_barely, Description.writtenWith_eq_ok]
  exact ⟨[""], "L", mapM_cons_eq_ok.mpr ⟨_, _, display_text _ _, rfl, rfl⟩, rfl, rfl⟩

/-- An entry without text counts as one that is written: the next has a separator before it. An entry
that is left out does not count, and may as well never be added. -/
theorem display_addition_barely :
    (barely.handle (.act (.add 0 (.text "b") (.atom (.bool true))))).2.display (.ref 0) =
        .ok "L\x7b, b=true\x7d" ∧
      (barely.handle (.act (.add 0 (.text "y") .null))).2.display (.ref 0) = .ok "L\x7b\x7d" ∧
      (barely.handle (.act (.omitNulls 0))).2.display (.ref 0) =
        (lone.follow [.act (.addValue 0 (.text "")), .act (.omitNulls 0)]).display (.ref 0) := by
  have hself : ∀ v ∈ (barely.cell 0).parts, ¬ v.LeadsTo barely.Holds 0 := by
    simp [cell_barely, Cell.parts, Value.LeadsTo]
  have hatom : ∀ x : Atom, ¬ (Value.atom x).LeadsTo barely.Holds 0 := by
    simp [Value.LeadsTo]
  obtain ⟨hadd, hrun⟩ := display_addition barely 0 _ cell_barely hself
  refine ⟨?_, ?_, hrun lone (.text "L") _ rfl rfl⟩
  · obtain ⟨-, hshown⟩ := hadd (.act (.add 0 (.text "b") (.atom (.bool true)))) _ _ _ rfl rfl (hatom _)
      (hatom _) display_barely
    obtain ⟨body, hbody, -, hsome⟩ := hshown "b=true" (by simp [Description.Hides]) rfl
    obtain rfl : "L\x7b" = body := (String.append_left_inj "\x7d").mp hbody
    exact hsome ⟨⟨.null, .text ""⟩, by simp, by simp [Description.Hides]⟩
  · obtain ⟨hhidden, -⟩ := hadd (.act (.add 0 (.text "y") .null)) _ _ _ rfl rfl (hatom _)
      (hatom _) display_barely
    exact hhidden ⟨rfl, rfl⟩

end Heap

end Depict

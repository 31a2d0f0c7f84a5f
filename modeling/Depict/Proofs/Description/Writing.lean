import Depict.Proofs.Description.Calls
import Depict.Proofs.Show.Depth

/-!
# Writing entry by entry

A description can also be written in one pass over the entries that were added to it, with a
comma and a space before every entry that is written but the first. This gives the text that
the description has, whatever else it was asked or refused before.
-/
namespace Depict

namespace Heap

/-- The rest of a description, entry by entry, behind the text so far; `started` tells whether an
entry was written already. -/
def emit (h : Heap) (omits : Bool) : List Entry → Bool → String → Except Fault String
  | [], _, text => .ok (text ++ "\x7d")
  | e :: es, started, text =>
    if omits && e.isNull then h.emit omits es started text
    else do
      let item ← h.writtenEntry e
      h.emit omits es true (text ++ (if started then ", " else "") ++ item)

/-- A description in one pass: the label, a brace, the entries, a brace. -/
def writtenInPass (h : Heap) (label : Value) (omits : Bool) (es : List Entry) :
    Except Fault String := do
  let label ← h.runningText label
  h.emit omits es false (label ++ "\x7b")

end Heap

/-- Texts each of which has a comma and a space before it. -/
def followed : List String → String
  | [] => ""
  | s :: rest => ", " ++ s ++ followed rest

theorem joined_cons (s : String) (rest : List String) : joined (s :: rest) = s ++ followed rest := by
  induction rest generalizing s with
  | nil => simp [joined, followed]
  | cons t rest ih => simp [joined, followed, ih t, String.append_assoc]

/-- A value is written as what a description keeps of it. -/
theorem Value.writtenWith_of_recorded {shown : Value → Except Fault String}
    (htext : ∀ s, shown (.text s) = .ok s) {v k : Value} (hk : v.recorded = .ok k) :
    k.isNull = v.isNull ∧ k.writtenWith shown = v.writtenWith shown := by
  cases v with
  | ref a =>
    rw [← Except.ok.inj hk]
    exact ⟨rfl, rfl⟩
  | atom a =>
    change (if a.isPrimitive then a.primitiveText.map Value.text else .ok (.atom a)) = .ok k at hk
    by_cases hp : a.isPrimitive = true
    · rw [if_pos hp] at hk
      obtain ⟨s, hs, rfl⟩ := map_eq_ok.mp hk
      have hn : (Value.atom a).isNull = false := by
        cases a with
        | null => cases hp
        | _ => rfl
      have hwritten : (Value.atom a).writtenWith shown = .ok s := by
        rw [Value.writtenWith, hn]
        exact (if_pos hp).trans hs
      exact ⟨hn.symm, (htext s).trans hwritten.symm⟩
    · rw [if_neg hp] at hk
      rw [← Except.ok.inj hk]
      exact ⟨rfl, rfl⟩

/-- The entries that are written, of those that were added. -/
def visibleOf (omits : Bool) (es : List Entry) : List Entry :=
  es.filter fun e => !(omits && e.isNull)

namespace Heap
variable {h : Heap} {omits : Bool} {es : List Entry}

theorem display_text (h : Heap) (s : String) : h.display (.text s) = .ok s :=
  h.displayFrom_atom _ _

theorem writtenEntry_of_recorded {e k : Entry} (hk : e.recorded = .ok k) :
    k.isNull = e.isNull ∧ h.writtenEntry k = h.writtenEntry e := by
  obtain ⟨kept, hkept, rfl⟩ := map_eq_ok.mp hk
  obtain ⟨hn, hw⟩ := Value.writtenWith_of_recorded h.display_text hkept
  refine ⟨hn, ?_⟩
  rw [writtenEntry, writtenEntry, Entry.writtenWith, Entry.writtenWith, hw]

/-- What is written of the recorded entries is what is written of the added ones. -/
theorem mapM_writtenEntry_of_recorded : ∀ {kept : List Entry}, es.mapM Entry.recorded = .ok kept →
    (visibleOf omits kept).mapM h.writtenEntry = (visibleOf omits es).mapM h.writtenEntry := by
  induction es with
  | nil =>
    intro kept hkept
    rw [← Except.ok.inj hkept]
    rfl
  | cons e es ih =>
    intro kept hkept
    obtain ⟨k, ks, hk, hks, rfl⟩ := mapM_cons_eq_ok.mp hkept
    obtain ⟨hn, hw⟩ := writtenEntry_of_recorded (h := h) hk
    have ih := ih hks
    unfold visibleOf at ih ⊢
    rw [List.filter_cons, List.filter_cons, hn]
    split
    · rw [List.mapM_cons, List.mapM_cons, hw, ih]
    · exact ih

theorem emit_of_hidden {e : Entry} (he : (omits && e.isNull) = true) (started : Bool)
    (text : String) : h.emit omits (e :: es) started text = h.emit omits es started text := by
  rw [emit, if_pos he]

theorem emit_of_shown {e : Entry} {item : String} (he : ¬ (omits && e.isNull) = true)
    (hitem : h.writtenEntry e = .ok item) (started : Bool) (text : String) :
    h.emit omits (e :: es) started text =
      h.emit omits es true (text ++ (if started then ", " else "") ++ item) := by
  rw [emit, if_neg he, hitem]
  rfl

theorem visibleOf_of_hidden {e : Entry} (he : (omits && e.isNull) = true) :
    visibleOf omits (e :: es) = visibleOf omits es :=
  List.filter_cons_of_neg (by simp [he])

theorem visibleOf_of_shown {e : Entry} (he : ¬ (omits && e.isNull) = true) :
    visibleOf omits (e :: es) = e :: visibleOf omits es :=
  List.filter_cons_of_pos (by simp [he])

/-- The pass writes the entries that are to be written with separators between them, and with one
before the first if an entry was written already. -/
theorem emit_eq_joined (started : Bool) : ∀ {items : List String} (text : String),
    (visibleOf omits es).mapM h.writtenEntry = .ok items →
      h.emit omits es started text =
        .ok (text ++ (if started then followed items else joined items) ++ "\x7d") := by
  induction es generalizing started with
  | nil =>
    intro items text hitems
    rw [← Except.ok.inj hitems]
    simp [emit, followed, joined]
  | cons e es ih =>
    intro items text hitems
    by_cases he : (omits && e.isNull) = true
    · rw [visibleOf_of_hidden he] at hitems
      rw [emit_of_hidden he, ih started text hitems]
    · rw [visibleOf_of_shown he] at hitems
      obtain ⟨item, rest, hitem, hrest, rfl⟩ := mapM_cons_eq_ok.mp hitems
      rw [emit_of_shown he hitem, ih true _ hrest, joined_cons, followed]
      cases started <;> simp [String.append_assoc]

/-- A description that has a text is written so in one pass over what was added to it. -/
theorem writtenInPass_of_display {a : Address} {d : Description} {s : String}
    (hd : h.cell a = .description d) (hkept : es.mapM Entry.recorded = .ok d.entries)
    (hs : h.display (.ref a) = .ok s) : h.writtenInPass d.label d.omitsNulls es = .ok s := by
  obtain ⟨items, label, hitems, hlabel, rfl⟩ :=
    Description.writtenWith_eq_ok.mp (display_description hd hs)
  have hadded : (visibleOf d.omitsNulls es).mapM h.writtenEntry = .ok items :=
    (mapM_writtenEntry_of_recorded hkept).symm.trans hitems
  exact bind_eq_ok.mpr ⟨label, hlabel, emit_eq_joined false _ hadded⟩

/-- The text of a description after a run depends on the heap at that moment, its label, what was
added to it and whether it was ever told to leave out missing values: one pass over these gives
it. Two runs that agree on them leave the same description, and the same heap if they consist of
calls on the description alone. -/
theorem display_follow (h : Heap) (a : Address) (label : Value) (es : List Event)
    (hd : h.cell a = .description (.empty label)) :
    (∀ s, (h.follow es).display (.ref a) = .ok s →
      (h.follow es).writtenInPass label (es.any (·.omitsNulls a)) (h.added a es) = .ok s) ∧
    ∀ es', h.added a es' = h.added a es → es'.any (·.omitsNulls a) = es.any (·.omitsNulls a) →
      (h.follow es').cell a = (h.follow es).cell a ∧
      (es'.all (·.isOn a) = true → es.all (·.isOn a) = true → h.follow es' = h.follow es) := by
  obtain ⟨kept, hkept, hcell⟩ := cell_follow es hd
  refine ⟨fun s hs => ?_, fun es' hadded hflag => ?_⟩
  · exact writtenInPass_of_display hcell hkept hs
  · obtain ⟨kept', hkept', hcell'⟩ := cell_follow es' hd
    rw [hadded, hkept] at hkept'
    rw [← Except.ok.inj hkept', hflag] at hcell'
    have hsame := hcell'.trans hcell.symm
    refine ⟨hsame, fun hon' hon => ?_⟩
    rw [follow_eq_set hd hon', follow_eq_set hd hon, hsame]

/-- A description under the label `L`, and no other object. -/
def lone : Heap :=
  ⟨[.description (.empty (.text "L"))]⟩

/-- Calls on it: two entries of one name, an entry without text, a question and a failing call. -/
def mixedCalls : List Event :=
  [.act (.add 0 (.text "x") .null), .ask 0 .written, .act (.add 0 .null (.atom (.int 1))),
    .act (.addValue 0 (.text "")), .act (.omitNulls 0),
    .act (.add 0 (.text "x") (.atom (.bool true)))]

/-- The same without the question and the failing call, and the flag set first, and again. -/
def plainCalls : List Event :=
  [.act (.omitNulls 0), .act (.add 0 (.text "x") .null), .act (.addValue 0 (.text "")),
    .act (.add 0 (.text "x") (.atom (.bool true))), .act (.omitNulls 0)]

theorem display_mixedCalls : (lone.follow mixedCalls).display (.ref 0) = .ok "L\x7b, x=true\x7d" := by
  have hd : (lone.follow mixedCalls).cell 0 = .description ⟨.text "L",
      [⟨.text "x", .null⟩, ⟨.null, .text ""⟩, ⟨.text "x", .text "true"⟩], true⟩ := rfl
  rw [display, displayFrom_description hd (by decide), Description.writtenWith_eq_ok]
  refine ⟨["", "x=true"], "L", ?_, rfl, rfl⟩
  simp only [Description.visible, Entry.isNull, Value.isNull, Bool.and_self, Bool.not_true,
    Bool.and_false, Bool.not_false, List.filter_cons_of_neg, List.filter_cons_of_pos,
    List.filter_nil, Bool.false_eq_true, not_false_eq_true, List.mapM_cons, List.mapM_nil,
    Entry.writtenWith, Value.writtenWith, Value.isPrimitive, Atom.isPrimitive,
    Value.runningWith, Atom.runningText, Atom.display, displayFrom_atom, if_true, if_false]
  rfl

theorem display_follow_mixedCalls :
    (lone.follow mixedCalls).writtenInPass (.text "L") true (lone.added 0 mixedCalls) =
        .ok "L\x7b, x=true\x7d" ∧
      lone.follow plainCalls = lone.follow mixedCalls :=
  have h := display_follow lone 0 (.text "L") mixedCalls rfl
  ⟨h.1 _ display_mixedCalls, (h.2 plainCalls rfl rfl).2 rfl rfl⟩

end Heap

end Depict

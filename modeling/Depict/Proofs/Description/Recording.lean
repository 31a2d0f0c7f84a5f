import Depict.Proofs.Description.Growth

/-!
# What cannot be recorded

A primitive value is converted when it is added, and the conversion can fail: a whole number can
have too many digits, and a span of time can read as something else than a number. These two kinds of
values are all that a description refuses besides a missing name; any other call to add puts exactly
one entry behind the others.
-/
namespace Depict
open Decimal

/-- What a span of time reads as where a plain number is wanted, by the name of its type: an absent
span as no value, and a span in a unit from the week to the microsecond as a span of days if it
lasts less than a billion of them. -/
inductive TimeSpan.ReadsAs (t : TimeSpan) : String → Prop
  | nothing (h : t.isAbsent = true) : ReadsAs t "NoneType"
  | days {per days : Nat} (h : t.isAbsent = false) (hu : t.unit.perDay? = some (per, days))
      (hlow : -999999999 * per ≤ wrap (t.count * days))
      (hhigh : wrap (t.count * days) < 1000000000 * per) : ReadsAs t "datetime.timedelta"

/-- Why a value cannot be recorded: it is a whole number with too many digits, or a span of time
that reads as no number. -/
inductive Value.Unrecordable : Value → Fault → Prop
  | overlong {n : Int} (h : digitLimit < (natDigits n.natAbs).length) :
      Unrecordable (.atom (.int n)) .unwritable
  | span {t : TimeSpan} {typeName : String} (h : t.ReadsAs typeName) :
      Unrecordable (.atom (.sized (.timeSpan t))) (.notNumber typeName)

theorem TimeUnit.perDay_pos {u : TimeUnit} {per days : Nat} (h : u.perDay? = some (per, days)) :
    0 < per := by
  cases u with
  | generic | year | month | nanosecond | picosecond | femtosecond | attosecond => cases h
  | week | day | hour | minute | second | millisecond | microsecond =>
    obtain ⟨rfl, -⟩ := Prod.mk.inj (Option.some.inj h)
    decide

theorem TimeSpan.obstacle?_eq_some_iff {t : TimeSpan} {typeName : String} :
    t.obstacle? = some typeName ↔ t.ReadsAs typeName := by
  unfold obstacle?
  cases ha : t.isAbsent with
  | true =>
    rw [if_pos rfl]
    constructor
    · intro h
      rw [← Option.some.inj h]
      exact .nothing ha
    · rintro (_ | ⟨h, -⟩)
      · rfl
      · rw [ha] at h
        cases h
  | false =>
    rw [if_neg Bool.false_ne_true]
    cases hu : t.unit.perDay? with
    | none =>
      refine ⟨fun h => (nomatch h), ?_⟩
      rintro (h | ⟨-, h, -⟩)
      · rw [ha] at h
        cases h
      · rw [hu] at h
        cases h
    | some fraction =>
      obtain ⟨per, days⟩ := fraction
      have hper : (0 : Int) < per := Int.natCast_pos.mpr (TimeUnit.perDay_pos hu)
      have hlow := Int.le_ediv_iff_mul_le (a := -999999999) (b := wrap (t.count * days)) hper
      have hhigh := Int.ediv_lt_iff_lt_mul (a := wrap (t.count * days)) (b := 1000000000) hper
      simp only [Int.fdiv_eq_ediv_of_nonneg _ (Int.le_of_lt hper), Bool.or_eq_true,
        decide_eq_true_eq]
      constructor
      · intro h
        split at h
        · cases h
        · rw [← Option.some.inj h]
          exact .days ha hu (hlow.mp (by omega)) (hhigh.mp (by omega))
      · rintro (h | ⟨-, hu', hlow', hhigh'⟩)
        · rw [ha] at h
          cases h
        · obtain ⟨rfl, rfl⟩ := Prod.mk.inj (Option.some.inj (hu.symm.trans hu'))
          rw [if_neg]
          have h₁ := hlow.mpr hlow'
          have h₂ := hhigh.mpr hhigh'
          omega

theorem wholeText_eq_error_iff {n : Int} {f : Fault} :
    wholeText n = .error f ↔ digitLimit < (natDigits n.natAbs).length ∧ f = .unwritable := by
  unfold wholeText intText?
  -- the limit is only a number here: its power is too large to be computed
  generalize hlimit : digitLimit = limit
  have hpos : 0 < limit := by
    rw [← hlimit]
    decide
  have hlength : (natDigits n.natAbs).length ≤ limit ↔ n.natAbs < Nat.pow 10 limit :=
    Nat.length_toDigits_le_iff (by decide) hpos
  have hlonger : limit < (natDigits n.natAbs).length ↔ ¬ n.natAbs < Nat.pow 10 limit := by
    rw [← hlength, Nat.not_le]
  rw [hlonger]
  by_cases hn : n.natAbs < Nat.pow 10 limit
  · rw [if_pos hn]
    exact ⟨fun h => (nomatch h), fun h => absurd hn h.1⟩
  · rw [if_neg hn]
    exact ⟨fun h => ⟨hn, (Except.error.inj h).symm⟩, fun h => congrArg Except.error h.2.symm⟩

namespace Value

theorem recorded_int (n : Int) : (atom (.int n)).recorded = (wholeText n).map .text := rfl

theorem recorded_timeSpan (t : TimeSpan) :
    (atom (.sized (.timeSpan t))).recorded =
      match t.obstacle? with
      | none => .ok (.text (String.ofList (intDigits t.count)))
      | some typeName => .error (.notNumber typeName) := by
  have h : (atom (.sized (.timeSpan t))).recorded =
      (Atom.primitiveText (.sized (.timeSpan t))).map .text := rfl
  rw [h, Atom.primitiveText]
  cases t.obstacle? <;> rfl

/-- Every other kind of value has a text when it is recorded, or is kept as it is. -/
theorem recorded_eq_error_iff {v : Value} {f : Fault} :
    v.recorded = .error f ↔ v.Unrecordable f := by
  constructor
  · intro h
    cases v with
    | ref a => cases h
    | atom a =>
      cases a with
      | int n =>
        rw [recorded_int, map_eq_error, wholeText_eq_error_iff] at h
        obtain ⟨hn, rfl⟩ := h
        exact .overlong hn
      | sized n =>
        cases n with
        | timeSpan t =>
          rw [recorded_timeSpan] at h
          split at h
          · cases h
          · next typeName ht =>
            rw [← Except.error.inj h]
            exact .span (TimeSpan.obstacle?_eq_some_iff.mp ht)
        | truth b | whole signed bits n | binary w x | complex w z => cases h
      | null | bool b | float x | complex z | text s | bytes bs | sizedText s | derivedInt n t
        | derivedFloat x t | derivedText s t => cases h
  · rintro (hn | ht)
    · rw [recorded_int, map_eq_error, wholeText_eq_error_iff]
      exact ⟨hn, rfl⟩
    · rw [recorded_timeSpan, TimeSpan.obstacle?_eq_some_iff.mpr ht]

/-- The least number with more digits than are written. -/
theorem unrecordable_pow : (atom (.int (Nat.pow 10 digitLimit))).Unrecordable .unwritable := by
  refine .overlong ?_
  generalize hlimit : digitLimit = limit
  have hpos : 0 < limit := by
    rw [← hlimit]
    decide
  have hlength : (natDigits (Nat.pow 10 limit)).length ≤ limit ↔
      Nat.pow 10 limit < Nat.pow 10 limit :=
    Nat.length_toDigits_le_iff (by decide) hpos
  rw [Int.natAbs_natCast]
  exact Nat.not_le.mp (mt hlength.mp (Nat.lt_irrefl _))

end Value

namespace Description

theorem record_of_ok {value kept : Value} (h : value.recorded = .ok kept) (d : Description)
    (name : Value) : d.record name value = .ok (d.push ⟨name, kept⟩) := by
  rw [record, h]
  rfl

theorem record_of_error {value : Value} {f : Fault} (h : value.recorded = .error f)
    (d : Description) (name : Value) : d.record name value = .error f := by
  rw [record, h]
  rfl

theorem add_of_ne_null {name : Value} (hname : name ≠ .null) (d : Description) (value : Value) :
    d.add name value = d.record name value := by
  have hn : name.isNull = false := by
    cases hb : name.isNull with
    | false => rfl
    | true =>
      unfold Value.isNull at hb
      split at hb
      · exact absurd rfl hname
      · cases hb
  rw [add, Value.required, hn]
  rfl

theorem add_null (d : Description) (value : Value) :
    d.add .null value = .error (.missingValue (.ofArgument "name" (.text "name"))) := rfl

end Description

namespace Heap
variable {h : Heap} {a : Address} {d : Description}

theorem handle_addValue (hd : h.cell a = .description d) (value : Value) :
    h.handle (.act (.addValue a value)) =
      match d.record .null value with
      | .ok d' => (.ok (.object a), h.set a (.description d'))
      | .error f => (.error f, h) := by
  have happlied : (Action.addValue a value).applied a d = d.record .null value := if_pos rfl
  rw [← happlied]
  exact handle_act_of_isOn hd (by simp [Event.isOn])

theorem handle_add_eq (hd : h.cell a = .description d) (name value : Value) :
    h.handle (.act (.add a name value)) =
      match d.add name value with
      | .ok d' => (.ok (.object a), h.set a (.description d'))
      | .error f => (.error f, h) := by
  have happlied : (Action.add a name value).applied a d = d.add name value := if_pos rfl
  rw [← happlied]
  exact handle_act_of_isOn hd (by simp [Event.isOn])

/-- A value that can be recorded is added under any name that is not missing, and bare: the call
answers with the same description, behind whose entries there is exactly one more. A value that
cannot be recorded is refused in both ways, a missing name for every value, and nothing changes. -/
theorem handle_add_iff_recordable (hd : h.cell a = .description d) (value : Value) :
    ((∀ f, ¬ value.Unrecordable f) → ∃ kept, value.recorded = .ok kept ∧
      h.handle (.act (.addValue a value)) =
        (.ok (.object a), h.set a (.description (d.push ⟨.null, kept⟩))) ∧
      ∀ name, name ≠ .null → h.handle (.act (.add a name value)) =
        (.ok (.object a), h.set a (.description (d.push ⟨name, kept⟩)))) ∧
    (∀ f, value.Unrecordable f → h.handle (.act (.addValue a value)) = (.error f, h) ∧
      ∀ name, name ≠ .null → h.handle (.act (.add a name value)) = (.error f, h)) ∧
    h.handle (.act (.add a .null value)) =
      (.error (.missingValue (.ofArgument "name" (.text "name"))), h) := by
  refine ⟨fun hv => ?_, fun f hf => ?_, ?_⟩
  · cases hr : value.recorded with
    | error f => exact absurd (Value.recorded_eq_error_iff.mp hr) (hv f)
    | ok kept =>
      refine ⟨kept, rfl, ?_, fun name hname => ?_⟩
      · rw [handle_addValue hd, Description.record_of_ok hr]
      · rw [handle_add_eq hd, Description.add_of_ne_null hname, Description.record_of_ok hr]
  · have hr := Value.recorded_eq_error_iff.mpr hf
    refine ⟨?_, fun name hname => ?_⟩
    · rw [handle_addValue hd, Description.record_of_error hr]
    · rw [handle_add_eq hd, Description.add_of_ne_null hname, Description.record_of_error hr]
  · rw [handle_add_eq hd, Description.add_null]

def oneYear : Value :=
  .atom (.sized (.timeSpan ⟨1, .year⟩))

/-- A year reads as the number 1, and a day as no number. -/
theorem handle_add_yearAndDay :
    let d : Description := ⟨.text "L", [⟨.text "b", .text "true"⟩], false⟩
    counted.cell 0 = .description d ∧ (∀ f, ¬ oneYear.Unrecordable f) ∧
      oneDay.Unrecordable (.notNumber "datetime.timedelta") ∧
      counted.handle (.act (.add 0 (.text "y") oneYear)) =
        (.ok (.object 0), counted.set 0 (.description (d.push ⟨.text "y", .text "1"⟩))) ∧
      counted.handle (.act (.addValue 0 oneDay)) =
        (.error (.notNumber "datetime.timedelta"), counted) := by
  intro d
  have hd : counted.cell 0 = .description d := rfl
  have hyear : ∀ f, ¬ oneYear.Unrecordable f := by
    rintro f (_ | habsent | ⟨-, hu, -⟩)
    · cases habsent
    · cases hu
  have hday : oneDay.Unrecordable (.notNumber "datetime.timedelta") :=
    .span (.days rfl rfl (by decide) (by decide))
  obtain ⟨kept, hkept, -, hadd⟩ := (handle_add_iff_recordable hd oneYear).1 hyear
  obtain rfl : .text "1" = kept := Except.ok.inj hkept
  exact ⟨hd, hyear, hday, hadd (.text "y") (by simp),
    ((handle_add_iff_recordable hd oneDay).2.1 _ hday).1⟩

/-- Adding a bare value can fail, and so can adding a value under a name: a span of one day and the
least number with too many digits are refused. -/
theorem handle_add_refused :
    counted.handle (.act (.addValue 0 oneDay)) =
        (.error (.notNumber "datetime.timedelta"), counted) ∧
      counted.handle (.act (.add 0 (.text "n") (.atom (.int (Nat.pow 10 digitLimit))))) =
        (.error .unwritable, counted) := by
  refine ⟨rfl, ?_⟩
  have hd : counted.cell 0 = .description ⟨.text "L", [⟨.text "b", .text "true"⟩], false⟩ := rfl
  have hr := Value.recorded_eq_error_iff.mpr (Value.unrecordable_pow)
  rw [handle_add_eq hd, Description.add_of_ne_null (by simp), Description.record_of_error hr]

end Heap

end Depict

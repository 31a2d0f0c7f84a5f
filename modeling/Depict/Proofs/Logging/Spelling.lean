import Depict.Proofs.Logging.Refusal
import Depict.Proofs.Text.Casing
import Mathlib.Data.List.Induction
import Mathlib.Data.Nat.Digits.Defs

/-!
# Texts that spell a level

A text spells a level by a decimal numeral, in the digits of any script, or by a name in any case,
and never both. Wherever the text comes from, setting up with it installs a console of that level,
and a text that spells none is refused as a misconfiguration. Only numerals that cannot be read,
because they are too long or hold a digit that has no value, are faults of another kind.
-/
namespace Depict
open Decimal Text

namespace Level

/-- The level that a text spells: the value of its decimal digits, the first one weighing most, or
the level of a name that the text is in upper case. -/
inductive Spells (body : List Char) : Int → Prop
  | numeral {ds : List Nat} (hne : ds ≠ []) (h : body.map decimalValue? = ds.map some) :
      Spells body (Nat.ofDigits 10 ds.reverse : Nat)
  | name {name : String} {n : Int} (h : (name, n) ∈ names) (hbody : upper body = name.toList) :
      Spells body n

/-- A numeral without a number that can be read off it: it starts with too many decimal digits, or
one of its digits has no value. -/
def Unreadable (body : List Char) : Prop :=
  IsNumeral body ∧
    (digitLimit < (leadingDigits body).length ∨ ∃ c ∈ body, decimalValue? c = none)

theorem decimalNumber_eq_ofDigits {body : List Char} :
    ∀ {ds : List Nat}, body.map decimalValue? = ds.map some →
      decimalNumber body = Nat.ofDigits 10 ds.reverse := by
  induction body using List.reverseRecOn with
  | nil =>
    intro ds h
    obtain rfl : ds = [] := List.map_eq_nil_iff.mp h.symm
    rfl
  | append_singleton body c ih =>
    intro ds h
    rw [List.map_append, List.map_singleton] at h
    obtain ⟨ds, last, rfl, hds, hlast⟩ := List.append_eq_map_iff.mp h
    obtain ⟨d, rfl, hd⟩ : ∃ d, last = [d] ∧ some d = decimalValue? c := by
      simpa [List.map_eq_singleton_iff] using hlast
    rw [decimalNumber, List.foldl_append, ← decimalNumber, ih hds.symm, List.reverse_append,
      List.reverse_singleton, List.singleton_append, Nat.ofDigits_cons, List.foldl_cons,
      List.foldl_nil, ← hd, Option.getD_some, Nat.add_comm]

theorem exists_digits {body : List Char} (h : ¬ ∃ c ∈ body, decimalValue? c = none) :
    ∃ ds : List Nat, body.map decimalValue? = ds.map some := by
  induction body with
  | nil => exact ⟨[], rfl⟩
  | cons c body ih =>
    obtain ⟨ds, hds⟩ := ih fun ⟨d, hd, hn⟩ => h ⟨d, List.mem_cons_of_mem c hd, hn⟩
    cases hc : decimalValue? c with
    | none => exact absurd ⟨c, List.mem_cons_self, hc⟩ h
    | some d => exact ⟨d :: ds, by rw [List.map_cons, List.map_cons, hc, hds]⟩

theorem isNumeral_of_digits {body : List Char} {ds : List Nat} (hne : ds ≠ [])
    (h : body.map decimalValue? = ds.map some) : IsNumeral body := by
  refine ⟨fun hnil => ?_, fun c hc => ?_⟩
  · rw [hnil] at h
    exact hne (List.map_eq_nil_iff.mp h.symm)
  · have hmem : decimalValue? c ∈ ds.map some := h ▸ List.mem_map_of_mem hc
    obtain ⟨d, -, hd⟩ := List.mem_map.mp hmem
    exact isDigit_of_decimalValue? hd.symm

theorem ofDigits_eq_number {body : List Char} {ds : List Nat}
    (h : body.map decimalValue? = ds.map some) (hu : ¬ Unreadable body) (hn : IsNumeral body) :
    ofDigits body = .ok (.number (Nat.ofDigits 10 ds.reverse : Nat)) := by
  have hvalues : ∀ c ∈ body, (decimalValue? c).isSome = true := by
    intro c hc
    have hmem : decimalValue? c ∈ ds.map some := h ▸ List.mem_map_of_mem hc
    obtain ⟨d, -, hd⟩ := List.mem_map.mp hmem
    rw [← hd]
    rfl
  have hlength : ¬ digitLimit < (leadingDigits body).length := fun hl => hu ⟨hn, .inl hl⟩
  unfold ofDigits
  dsimp only
  rw [← leadingDigits, if_neg hlength, if_pos (List.all_eq_true.mpr hvalues),
    decimalNumber_eq_ofDigits h]

/-- A digit is no letter, and stays what it is in upper case. -/
theorem upperChar_of_isDigit {c : Char} (hc : isDigit c = true) :
    upperChar c = [c] ∧ ¬ (65 ≤ c.toNat ∧ c.toNat ≤ 90) := by
  by_cases hascii : c.toNat < 128
  · have hall : isDigit c = true → c.toNat < 58 ∧ upperChar c = [c] :=
      forall_char_of_lt c hascii (by decide +kernel)
    obtain ⟨hlow, hupper⟩ := hall hc
    exact ⟨hupper, by omega⟩
  · have hne : ∀ d : Char, isDigit d = false → c ≠ d := by
      rintro d hd rfl
      rw [hc] at hd
      cases hd
    have hsame : c.toUpper = c := by
      unfold Char.toUpper
      rw [dif_neg]
      rintro ⟨-, hle⟩
      have hle : c.toNat ≤ 122 := hle
      omega
    refine ⟨?_, by omega⟩
    simp [upperChar, hsame, hne 'ß' (by decide), hne 'ı' (by decide), hne 'ſ' (by decide),
      hne 'ﬀ' (by decide), hne 'ﬁ' (by decide), hne 'ﬂ' (by decide), hne 'ﬃ' (by decide),
      hne 'ﬄ' (by decide), hne 'ﬅ' (by decide), hne 'ﬆ' (by decide)]

/-- No numeral is a name: names start with a letter. -/
theorem not_isNumeral_of_name {body : List Char} {name : String} {n : Int} (h : (name, n) ∈ names)
    (hbody : upper body = name.toList) : ¬ IsNumeral body := by
  rintro ⟨hne, hdigits⟩
  obtain ⟨c, cs, rfl⟩ := List.exists_cons_of_ne_nil hne
  obtain ⟨hupper, hletter⟩ := upperChar_of_isDigit (hdigits c List.mem_cons_self)
  have hhead : name.toList.head? = some c := by
    rw [← hbody, upper, List.flatMap_cons, hupper]
    rfl
  have hall : ∀ p ∈ names, p.1.toList.head?.all (fun d => 65 ≤ d.toNat && d.toNat ≤ 90) = true := by
    decide +kernel
  have hname := hall _ h
  rw [hhead] at hname
  exact hletter (by simpa using hname)

theorem lookup_names {name : String} {n : Int} (h : (name, n) ∈ names) :
    names.lookup name = some n := by
  have hall : ∀ p ∈ names, names.lookup p.1 = some p.2 := by decide +kernel
  exact hall _ h

theorem mem_names_of_lookup {name : String} {n : Int} (h : names.lookup name = some n) :
    (name, n) ∈ names := by
  obtain ⟨before, after, heq, -⟩ := List.lookup_eq_some_iff.mp h
  rw [heq]
  exact List.mem_append_right before List.mem_cons_self

variable {characters shown : String}

theorem ofText_of_spells {n : Int} (h : Spells (trim characters.toList) n)
    (hu : ¬ Unreadable (trim characters.toList)) : ofText characters shown = .ok (.number n) := by
  unfold ofText
  generalize trim characters.toList = body at h hu
  dsimp only
  cases h with
  | numeral hne hds =>
    have hn := isNumeral_of_digits hne hds
    have hdigits : (!body.isEmpty && body.all isDigit) = true := by simpa [IsNumeral] using hn
    rw [if_pos hdigits, ofDigits_eq_number hds hu hn]
  | name hmem hbody =>
    have hdigits : ¬ (!body.isEmpty && body.all isDigit) = true := by
      simpa [IsNumeral] using not_isNumeral_of_name hmem hbody
    rw [if_neg hdigits, hbody, String.ofList_toList, lookup_names hmem]

/-- A text that spells no level is no numeral, or one that cannot be read. -/
theorem ofText_of_not_spells (h : ∀ n, ¬ Spells (trim characters.toList) n)
    (hu : ¬ Unreadable (trim characters.toList)) :
    ofText characters shown = .error (unknown shown) := by
  rw [ofText_eq_error_iff]
  generalize trim characters.toList = body at h hu
  have hn : ¬ IsNumeral body := by
    intro hn
    obtain ⟨ds, hds⟩ := exists_digits fun hc => hu ⟨hn, .inr hc⟩
    have hne : ds ≠ [] := by
      rintro rfl
      exact hn.1 (List.map_eq_nil_iff.mp hds)
    exact h _ (.numeral hne hds)
  refine .unknown hn ?_
  cases hl : names.lookup (String.ofList (upper body)) with
  | none => rfl
  | some n => exact absurd (.name (mem_names_of_lookup hl) (String.toList_ofList ..).symm) (h n)

theorem ofText_of_unreadable (shown : String) (hu : Unreadable (trim characters.toList)) :
    ∃ f, f.kind = .value ∧ ofText characters shown = .error f := by
  simp only [ofText_eq_error_iff]
  obtain ⟨hn, hc⟩ := hu
  by_cases hl : digitLimit < (leadingDigits (trim characters.toList)).length
  · exact ⟨_, rfl, .overlong hn hl⟩
  · exact ⟨_, rfl, .worthless hn (Nat.le_of_not_lt hl) (hc.resolve_left hl)⟩

end Level

namespace LevelRequest

/-- The request asks for the level that a text spells: the text is given, or it is the setting's
value in the environment, or in the defaults if the environment has none that is not blank. -/
inductive Offers (s : Settings) (text : String) : LevelRequest → Prop
  | argument (shown : String) : Offers s text (.word text shown)
  | environment (h : s.environment.get? Level.setting = some text)
      (hblank : trim text.toList ≠ []) : Offers s text .absent
  | defaults {ps : Pairs} (hq : s.Undecided (.named Level.setting)) (hps : s.found = .ok ps)
      (h : ps.get? Level.setting = some text) (hblank : trim text.toList ≠ []) :
      Offers s text .absent

theorem resolve_of_found {s : Settings} {v : String}
    (h : (s.resolve (.named Level.setting)).1 = .ok (some v)) :
    (absent.resolve s).1 = Level.ofText v (quote v) := by
  rw [resolve_absent, h]
  rfl

theorem resolve_of_offers {s : Settings} {text : String} {r : LevelRequest} (h : r.Offers s text) :
    ∃ characters shown, trim characters.toList = trim text.toList ∧
      (r.resolve s).1 = Level.ofText characters shown := by
  have htrim : trim (String.ofList (trim text.toList)).toList = trim text.toList := by
    rw [String.toList_ofList]
    exact trimBy_of_bare (bare_trimBy isBlank text.toList)
  cases h with
  | argument shown => exact ⟨text, shown, rfl, rfl⟩
  | environment h hblank =>
    have hs : (Query.named Level.setting).usable? (some text) = _ := Query.usable?_named hblank
    rw [← h] at hs
    refine ⟨_, _, htrim, resolve_of_found ?_⟩
    rw [Settings.resolve_of_environment hs]
  | defaults hq hps h hblank =>
    refine ⟨_, _, htrim, resolve_of_found ?_⟩
    have hname : (Query.named Level.setting).name = Level.setting := rfl
    rw [Settings.resolve_fst, Query.usable?_eq_none hq, hps, hname]
    dsimp only
    rw [Except.map, h, Query.usable?_named hblank]

end LevelRequest

namespace Session
variable {s : Session} {r : SetupRequest} {friendly : Bool}

theorem resolve_of_friendly (hfriendly : r.friendly = some friendly) :
    (r.resolve s.settings).1 =
      (r.level.resolve s.settings).1.map fun level => (level, Style.ofFlag friendly) := by
  rw [SetupRequest.resolve_fst, hfriendly]
  cases (r.level.resolve s.settings).1 <;> rfl

/-- Without a console, setting up depends on the level alone if the style is given. -/
theorem setup_of_level_ok (hnone : s.logging.installed = none)
    (hfriendly : r.friendly = some friendly) {level : Level}
    (h : (r.level.resolve s.settings).1 = .ok level) :
    (s.setup r).reply = .ok .done ∧
      (s.setup r).session.logging = s.logging.install level (Style.ofFlag friendly) := by
  have hidle : s.logging.isAttached = false := by rw [Logging.isAttached, hnone]
  have hretire : s.logging.retire = (.ok (), s.logging, .none) := by rw [Logging.retire, hnone]
  have hres := resolve_of_friendly (s := s) hfriendly
  rw [h] at hres
  unfold setup
  rw [hidle, Bool.false_and, if_neg Bool.false_ne_true]
  rcases hr : r.resolve s.settings with ⟨x, settings⟩
  rw [hr] at hres
  obtain rfl : x = .ok (level, Style.ofFlag friendly) := hres
  dsimp only
  rw [hretire]
  exact ⟨rfl, rfl⟩

theorem setup_of_level_error (hnone : s.logging.installed = none)
    (hfriendly : r.friendly = some friendly) {f : Fault}
    (h : (r.level.resolve s.settings).1 = .error f) :
    (s.setup r).reply = .error f ∧ (s.setup r).session.logging = s.logging := by
  have hidle : s.logging.isAttached = false := by rw [Logging.isAttached, hnone]
  have hres := resolve_of_friendly (s := s) hfriendly
  rw [h] at hres
  unfold setup
  rw [hidle, Bool.false_and, if_neg Bool.false_ne_true]
  rcases hr : r.resolve s.settings with ⟨x, settings⟩
  rw [hr] at hres
  obtain rfl : x = .error f := hres
  exact ⟨rfl, rfl⟩

/-- Setting up with a text for the level while there is no console, the style being given. If the
text is no numeral that cannot be read, a console of the level that it spells is installed, or it
spells none and is refused as a misconfiguration. A numeral that cannot be read is a fault of
values. -/
theorem setup_offered (s : Session) (r : SetupRequest) (text : String) (friendly : Bool)
    (hnone : s.logging.installed = none) (hfriendly : r.friendly = some friendly)
    (hoffer : r.level.Offers s.settings text) :
    let body := trim text.toList
    let t := s.setup r
    (¬ Level.Unreadable body →
      (∀ n, Level.Spells body n → t.reply = .ok .done ∧
        t.session.logging = s.logging.install (.number n) (Style.ofFlag friendly)) ∧
      ((∀ n, ¬ Level.Spells body n) → ∃ f, f.kind = .configuration ∧ t.reply = .error f ∧
        t.session.logging = s.logging)) ∧
    (Level.Unreadable body → ∃ f, f.kind = .value ∧ t.reply = .error f ∧
      t.session.logging = s.logging) := by
  intro body t
  obtain ⟨characters, shown, htrim, hresolve⟩ := LevelRequest.resolve_of_offers hoffer
  have hbody : trim characters.toList = body := htrim
  refine ⟨fun hu => ⟨fun n hn => ?_, fun hno => ?_⟩, fun hu => ?_⟩
  · rw [← hbody] at hu hn
    rw [Level.ofText_of_spells hn hu] at hresolve
    exact setup_of_level_ok hnone hfriendly hresolve
  · rw [← hbody] at hu hno
    rw [Level.ofText_of_not_spells hno hu] at hresolve
    obtain ⟨hreply, hlogging⟩ := setup_of_level_error hnone hfriendly hresolve
    exact ⟨_, rfl, hreply, hlogging⟩
  · rw [← hbody] at hu
    obtain ⟨f, hkind, hf⟩ := Level.ofText_of_unreadable shown hu
    rw [hf] at hresolve
    obtain ⟨hreply, hlogging⟩ := setup_of_level_error hnone hfriendly hresolve
    exact ⟨f, hkind, hreply, hlogging⟩

/-- The setting is a numeral in other digits, in the file of the working directory, and the one in
the environment is blank. -/
def offeredInFile : Session :=
  ⟨⟨[("OBJTOOLS_LOG_LEVEL", " ")],
    .content (Text.Utf8.encode "OBJTOOLS_LOG_LEVEL = ٣٠ ".toList), .absent, none, "/root"⟩,
    .initial⟩

theorem setup_offeredInFile :
    let r : SetupRequest := ⟨.absent, some true, false⟩
    offeredInFile.logging.installed = none ∧ r.level.Offers offeredInFile.settings "٣٠" ∧
      Level.Spells ['٣', '٠'] 30 ∧ ¬ Level.Unreadable ['٣', '٠'] ∧
      (offeredInFile.setup r).session.logging =
        Logging.initial.install (.number 30) .friendly := by
  intro r
  have hq : offeredInFile.settings.Undecided (.named Level.setting) := by
    intro v hv
    rw [← Option.some.inj hv, Query.Counts]
    decide
  have hps : offeredInFile.settings.found = .ok [("OBJTOOLS_LOG_LEVEL", "٣٠")] := by
    decide +kernel
  have hoffer : r.level.Offers offeredInFile.settings "٣٠" := .defaults hq hps rfl (by decide)
  have hdigits : ['٣', '٠'].map decimalValue? = [3, 0].map some := by decide
  have hspells : Level.Spells ['٣', '٠'] 30 := .numeral (List.cons_ne_nil 3 [0]) hdigits
  have hu : ¬ Level.Unreadable ['٣', '٠'] := by
    rintro ⟨-, hlong | ⟨c, hc, hn⟩⟩
    · exact absurd hlong (by decide)
    · have hall : ['٣', '٠'].all (fun c => (decimalValue? c).isSome) = true := by decide
      have hsome := List.all_eq_true.mp hall c hc
      rw [hn] at hsome
      cases hsome
  have h := setup_offered offeredInFile r "٣٠" true rfl rfl hoffer
  exact ⟨rfl, hoffer, hspells, hu, ((h.1 hu).1 30 hspells).2⟩

/-- A superscript digit is refused, but as no misconfiguration. -/
theorem setup_superscript :
    let s : Session := ⟨⟨[], .absent, .absent, none, "/root"⟩, .initial⟩
    let t := s.setup ⟨.ofText "²", some false, false⟩
    s.logging.installed = none ∧ t.reply = .error (.notWhole "'²'") ∧
      Fault.kind (.notWhole "'²'") ≠ .configuration := by
  intro s t
  have hread : (LevelRequest.resolve (.ofText "²") s.settings).1 = .error (.notWhole "'²'") := by
    decide +kernel
  exact ⟨rfl, (setup_of_level_error rfl rfl hread).1, by decide⟩

end Session

end Depict

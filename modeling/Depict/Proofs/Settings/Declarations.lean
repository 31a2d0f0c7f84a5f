import Depict.Settings.Dotenv
import Depict.Proofs.Settings.Pairs
import Depict.Proofs.Text.Trim

/-!
# What a text can declare

A text declares what its lines declare, one after another. Every key that is declared is bare
of blanks, no comment and free of equals signs, and every value is bare of double marks; maps
of such keys and values are closed under declaring.
-/
namespace Depict.Dotenv
open Text

/-- A text that can be a key. -/
@[mk_iff]
structure IsKey (key : List Char) : Prop where
  ne_nil : key ≠ []
  bare : Bare isBlank key
  not_comment : key.head? ≠ some '#'
  no_equals : '=' ∉ key
  no_break : ∀ c ∈ key, isLineBreak c = false

/-- A text that can be a value. -/
@[mk_iff]
structure IsValue (value : List Char) : Prop where
  bare : Bare (· == '\x22') value
  no_break : ∀ c ∈ value, isLineBreak c = false

/-- A map that can be declared. -/
@[mk_iff]
structure Declarable (ps : Pairs) : Prop where
  nodup : ps.keys.Nodup
  key : ∀ p ∈ ps, IsKey p.1.toList
  value : ∀ p ∈ ps, IsValue p.2.toList

instance (key : List Char) : Decidable (IsKey key) :=
  decidable_of_iff (key ≠ [] ∧ Bare isBlank key ∧ key.head? ≠ some '#' ∧ '=' ∉ key ∧
    key.all (!isLineBreak ·) = true) (by simp [isKey_iff])

instance (value : List Char) : Decidable (IsValue value) :=
  decidable_of_iff (Bare (· == '\x22') value ∧ value.all (!isLineBreak ·) = true)
    (by simp [isValue_iff])

instance (ps : Pairs) : Decidable (Declarable ps) :=
  decidable_of_iff _ (declarable_iff ps).symm

/-- What a line declares, as a pair. -/
def pair? (line : List Char) : Option (String × String) :=
  (declaration? line).map fun d => (String.ofList d.1, String.ofList d.2)

/-- The declarations of a text in order, those of one key included that come again. -/
def declarations (text : List Char) : Pairs :=
  (lines text).filterMap pair?

theorem foldl_declare (ps : Pairs) (ls : List (List Char)) :
    ls.foldl declare ps = ps.putAll (ls.filterMap pair?) := by
  induction ls generalizing ps with
  | nil => rfl
  | cons l ls ih =>
    rw [List.foldl_cons, ih, List.filterMap_cons, declare, pair?]
    cases declaration? l <;> rfl

theorem parse_eq_putAll (text : List Char) : parse text = Pairs.putAll [] (declarations text) :=
  foldl_declare [] (lines text)

/-- What is on one line is declared by that line. -/
theorem declarations_of_forall {line : List Char} (h : ∀ c ∈ line, isLineBreak c = false) :
    declarations line = [line].filterMap pair? := by
  rw [declarations, lines, pieces_eq_splitOnP, List.splitOnP_eq_singleton h]

theorem no_break_of_all {line : List Char} (h : line.all (!isLineBreak ·) = true) :
    ∀ c ∈ line, isLineBreak c = false := by
  simpa using h

theorem mem_of_mem_dropExport {line : List Char} {c : Char} (h : c ∈ dropExport line) :
    c ∈ line := by
  unfold dropExport at h
  split at h
  · exact List.mem_of_mem_drop ((List.dropWhile_suffix _).subset h)
  · exact h

/-- What follows the word export starts with no blank either. -/
theorem head?_dropExport_trim (line : List Char) :
    ∀ c ∈ (dropExport (trim line)).head?, isBlank c = false := by
  unfold dropExport
  split
  · exact head?_dropWhile
  · exact (bare_trimBy isBlank line).head

theorem unquote_dropEnd (value : List Char) : unquote (dropEnd isBlank value) = unquote value := by
  rw [unquote, unquote, trim, trim, trimBy_dropEnd]

theorem unquote_isValue {value : List Char} (h : ∀ c ∈ value, isLineBreak c = false) :
    IsValue (unquote value) where
  bare := bare_trimBy _ _
  no_break c hc := h c (mem_of_mem_trimBy (mem_of_mem_trimBy (mem_of_mem_trimBy hc)))

theorem trim_takeWhile_isKey {body : List Char} (hbody : ∀ c ∈ body, isLineBreak c = false)
    (hhead : ∀ c ∈ body.head?, isBlank c = false) (hcomment : body.head? ≠ some '#')
    (hkey : trim (body.takeWhile (· != '=')) ≠ []) : IsKey (trim (body.takeWhile (· != '='))) := by
  have hhead' : ∀ c ∈ (body.takeWhile (· != '=')).head?, isBlank c = false := by
    intro c hc
    rw [List.head?_takeWhile, Option.mem_def, Option.filter_eq_some_iff] at hc
    exact hhead c hc.1
  have hkeep : (body.takeWhile (· != '=')).dropWhile isBlank = body.takeWhile (· != '=') := by
    rw [List.dropWhile_eq_self_iff]
    intro hlength
    simpa using hhead' _ (List.head?_eq_getElem? ▸ List.getElem?_eq_getElem hlength)
  refine ⟨hkey, bare_trimBy _ _, ?_, ?_, ?_⟩
  · rw [trim, trimBy, hkeep, head?_dropEnd hhead', List.head?_takeWhile]
    intro hc
    exact hcomment (Option.filter_eq_some_iff.mp hc).1
  · intro hc
    have := List.mem_takeWhile_imp (mem_of_mem_trimBy hc)
    simp at this
  · intro c hc
    exact hbody c ((List.takeWhile_sublist _).subset (mem_of_mem_trimBy hc))

/-- A line without line boundaries declares a key and a value, or nothing. -/
theorem isKey_isValue_of_declaration? {line key value : List Char}
    (hline : ∀ c ∈ line, isLineBreak c = false) (h : declaration? line = some (key, value)) :
    IsKey key ∧ IsValue value := by
  have hbody : ∀ c ∈ dropExport (trim line), isLineBreak c = false :=
    fun c hc => hline c (mem_of_mem_trimBy (mem_of_mem_dropExport hc))
  have hhead := head?_dropExport_trim line
  unfold declaration? at h
  generalize dropExport (trim line) = body at h hbody hhead
  dsimp only at h
  split at h
  · contradiction
  · next hskip =>
    split at h
    · contradiction
    · next hempty =>
      obtain ⟨rfl, rfl⟩ := Prod.mk.inj (Option.some.inj h)
      have hcomment : body.head? ≠ some '#' := by
        intro hc
        simp [isSkipped, hc] at hskip
      refine ⟨trim_takeWhile_isKey hbody hhead hcomment (by simpa using hempty), ?_⟩
      exact unquote_isValue fun c hc =>
        hbody c ((List.dropWhile_suffix _).subset (List.mem_of_mem_drop hc))

/-- A body with an equals sign declares what stands before that, unless it is blank or a comment. -/
theorem declaration?_of_parts {line s rest : List Char}
    (hbody : dropExport (trim line) = s ++ '=' :: rest) (hequals : '=' ∉ s)
    (hcomment : s.head? ≠ some '#') :
    declaration? line = if trim s = [] then none else some (trim s, unquote rest) := by
  have hkeep : ∀ c ∈ s, (c != '=') = true := by
    intro c hc
    simpa using fun h : c = '=' => hequals (h ▸ hc)
  have htake : (s ++ '=' :: rest).takeWhile (· != '=') = s := by
    rw [List.takeWhile_append_of_pos hkeep]
    simp
  have hdrop : (s ++ '=' :: rest).dropWhile (· != '=') = '=' :: rest := by
    rw [List.dropWhile_append_of_pos hkeep]
    simp
  have hskip : isSkipped (s ++ '=' :: rest) = false := by
    cases s with
    | nil => simp [isSkipped]
    | cons c s => simpa [isSkipped] using hcomment
  unfold declaration?
  simp only [hbody, hskip, htake, hdrop, List.drop_one, List.tail_cons, Bool.false_eq_true, if_false,
    List.isEmpty_iff]

/-- A key and an equals sign declare the key with what follows. -/
theorem declaration?_of_body {line key rest : List Char} (hkey : IsKey key)
    (hbody : dropExport (trim line) = key ++ '=' :: rest) :
    declaration? line = some (key, unquote rest) := by
  have htrim : trim key = key := trimBy_of_bare hkey.bare
  rw [declaration?_of_parts hbody hkey.no_equals hkey.not_comment, htrim, if_neg hkey.ne_nil]

/-- A map is still one that can be declared when a line is declared on top. -/
theorem Declarable.put {ps : Pairs} {key value : String} (h : Declarable ps)
    (hkey : IsKey key.toList) (hvalue : IsValue value.toList) : Declarable (ps.put key value) where
  nodup := Pairs.nodup_keys_put key value h.nodup
  key p hp := by
    rcases Pairs.mem_put hp with rfl | hp
    · exact hkey
    · exact h.key p hp
  value p hp := by
    rcases Pairs.mem_put hp with rfl | hp
    · exact hvalue
    · exact h.value p hp

theorem Declarable.nil : Declarable [] where
  nodup := List.nodup_nil
  key _ hp := by cases hp
  value _ hp := by cases hp

theorem isKey_isValue_of_pair? {line : List Char} {p : String × String}
    (hline : ∀ c ∈ line, isLineBreak c = false) (h : pair? line = some p) :
    IsKey p.1.toList ∧ IsValue p.2.toList := by
  obtain ⟨⟨key, value⟩, hd, rfl⟩ := Option.map_eq_some_iff.mp h
  simpa using isKey_isValue_of_declaration? hline hd

theorem Declarable.putAll {ps ds : Pairs} (h : Declarable ps)
    (hds : ∀ d ∈ ds, IsKey d.1.toList ∧ IsValue d.2.toList) : Declarable (ps.putAll ds) := by
  induction ds generalizing ps with
  | nil => exact h
  | cons d ds ih =>
    obtain ⟨hkey, hvalue⟩ := hds d List.mem_cons_self
    exact ih (h.put hkey hvalue) fun e he => hds e (List.mem_cons_of_mem d he)

/-- What a text declares can be declared. -/
theorem declarable_parse (text : List Char) : Declarable (parse text) := by
  rw [parse_eq_putAll]
  refine Declarable.nil.putAll fun d hd => ?_
  obtain ⟨line, hline, hpair⟩ := List.mem_filterMap.mp hd
  exact isKey_isValue_of_pair? (not_mem_of_mem_pieces hline) hpair

end Depict.Dotenv

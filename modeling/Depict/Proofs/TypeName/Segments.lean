import Depict.Heap.TypeOf
import Depict.Proofs.TypeName.Collapse
import Mathlib.Data.List.Induction

/-!
# The innermost declared name of a path

A path is made of segments: local scopes, and declared names with suffixes, which mark anonymous,
local and nested types. The simple name of a type is the last name that is declared in its path:
the module before it, indexes and local scopes do not hide it.
-/
namespace Depict.TypeName
open Text

/-- A name that can be declared. It holds no separator, and no digits of an index end in it. -/
structure Identifier where
  chars : List Char
  ne_nil : chars ≠ [] := by decide
  no_dot : '.' ∉ chars := by decide
  no_dollar : '$' ∉ chars := by decide
  head : chars.head?.any Char.isDigit = false := by decide
  not_scope : chars ≠ localScope := by decide

def Identifier.text (i : Identifier) : String :=
  String.ofList i.chars

/-- The number of an anonymous or a local type. -/
structure Index where
  digits : List Char
  ne_nil : digits ≠ [] := by decide
  isDigit : digits.all Char.isDigit = true := by decide

/-- What can follow a declared name behind a dollar sign: the index of an anonymous type, the index
and the name of a local type, or the name of a nested type. -/
inductive Suffix
  | anonymous (i : Index)
  | indexed (i : Index) (name : Identifier)
  | nested (name : Identifier)

namespace Suffix

def digits : Suffix → List Char
  | anonymous i => i.digits
  | indexed i _ => i.digits
  | nested _ => []

def name? : Suffix → Option Identifier
  | anonymous _ => none
  | indexed _ name => some name
  | nested name => some name

/-- The characters of the name, if there is one. -/
def nameChars (s : Suffix) : List Char :=
  (s.name?.map Identifier.chars).getD []

def chars (s : Suffix) : List Char :=
  '$' :: (s.digits ++ s.nameChars)

/-- The suffix without its index. -/
def collapsed (s : Suffix) : List Char :=
  '$' :: s.nameChars

theorem isDigit_of_mem_digits {s : Suffix} {d : Char} (hd : d ∈ s.digits) : d.isDigit = true := by
  cases s with
  | anonymous i => exact List.all_eq_true.mp i.isDigit d hd
  | indexed i name => exact List.all_eq_true.mp i.isDigit d hd
  | nested name => cases hd

theorem no_dot_nameChars (s : Suffix) : '.' ∉ s.nameChars := by
  cases s with
  | anonymous i => exact List.not_mem_nil
  | indexed i name => exact name.no_dot
  | nested name => exact name.no_dot

theorem no_dollar_nameChars (s : Suffix) : '$' ∉ s.nameChars := by
  cases s with
  | anonymous i => exact List.not_mem_nil
  | indexed i name => exact name.no_dollar
  | nested name => exact name.no_dollar

theorem head_nameChars (s : Suffix) : s.nameChars.head?.any Char.isDigit = false := by
  cases s with
  | anonymous i => rfl
  | indexed i name => exact name.head
  | nested name => exact name.head

theorem no_dot_chars (s : Suffix) : '.' ∉ s.chars := by
  have hdigits : '.' ∉ s.digits := fun h => by
    have := isDigit_of_mem_digits h
    contradiction
  have hname := s.no_dot_nameChars
  simp [chars, hdigits, hname]

end Suffix

/-- A part of a path between its dots: a local scope, or a declared name with its suffixes. -/
inductive Segment
  | scope
  | declared (name : Identifier) (suffixes : List Suffix)

namespace Segment

def chars : Segment → List Char
  | scope => localScope
  | declared name suffixes => name.chars ++ suffixes.flatMap Suffix.chars

/-- The segment as suffixes of what stands before it; a declared name is that of a nested type. -/
def suffixes : Segment → List Suffix
  | scope => []
  | declared name suffixes => .nested name :: suffixes

/-- The names that are declared in the segment, in order. -/
def names : Segment → List Identifier
  | scope => []
  | declared name suffixes => name :: suffixes.filterMap Suffix.name?

theorem names_eq (s : Segment) : s.names = s.suffixes.filterMap Suffix.name? := by
  cases s <;> rfl

def isDeclared : Segment → Bool
  | scope => false
  | declared _ _ => true

theorem no_dot_chars (s : Segment) : '.' ∉ s.chars := by
  cases s with
  | scope => decide
  | declared name suffixes =>
    simp only [chars, List.mem_append, List.mem_flatMap, not_or, not_exists, not_and]
    exact ⟨name.no_dot, fun s _ => s.no_dot_chars⟩

/-- Only the mark of a local scope is dropped from a path. -/
theorem chars_ne_localScope (s : Segment) : (s.chars != localScope) = s.isDeclared := by
  cases s with
  | scope => rfl
  | declared name suffixes =>
    have hne : name.chars ++ suffixes.flatMap Suffix.chars ≠ localScope := by
      cases suffixes with
      | nil => simpa using name.not_scope
      | cons s suffixes =>
        intro h
        have hdollar : '$' ∈ localScope := by
          rw [← h]
          simp [Suffix.chars]
        exact absurd hdollar (by decide)
    simpa [chars, isDeclared] using hne

end Segment

/-- The segments with dots between them. -/
def pathOf (segments : List Segment) : String :=
  String.ofList (List.intercalate ['.'] (segments.map Segment.chars))

/-- The names that are declared in the segments, in order. -/
def namesOf (segments : List Segment) : List Identifier :=
  segments.flatMap Segment.names

theorem cons_intercalate (c : Char) {ls : List (List Char)} (hls : ls ≠ []) :
    c :: List.intercalate [c] ls = ls.flatMap (c :: ·) := by
  induction ls with
  | nil => exact absurd rfl hls
  | cons l ls ih =>
    cases ls with
    | nil => simp
    | cons k ls =>
      rw [List.intercalate_cons_cons, List.flatMap_cons, ← ih (by simp)]
      simp

theorem nested_pathOf {segments : List Segment} (h : segments ≠ []) :
    nested (pathOf segments).toList =
      List.intercalate ['$'] ((segments.filter Segment.isDeclared).map Segment.chars) := by
  have hpieces : pieces (· == '.') (pathOf segments).toList = segments.map Segment.chars := by
    rw [pathOf, String.toList_ofList, pieces_eq_splitOnP, ← List.splitOn_eq_splitOnP]
    refine List.splitOn_intercalate '.' ?_ (by simpa using h)
    simp only [List.mem_map, forall_exists_index, and_imp, forall_apply_eq_imp_iff₂]
    exact fun s _ => s.no_dot_chars
  rw [nested, hpieces, List.filter_map]
  congr 3
  exact funext Segment.chars_ne_localScope

theorem dollar_cons_declared (segments : List Segment) :
    (segments.filter Segment.isDeclared).flatMap (fun s => '$' :: s.chars) =
      (segments.flatMap Segment.suffixes).flatMap Suffix.chars := by
  induction segments with
  | nil => rfl
  | cons s segments ih =>
    cases s with
    | scope => exact ih
    | declared name suffixes =>
      rw [List.filter_cons_of_pos rfl, List.flatMap_cons, List.flatMap_cons, ih,
        List.flatMap_append]
      rfl

/-- The suffixes of segments that are not all local scopes start with a declared name. -/
theorem exists_flatMap_suffixes {segments : List Segment} (h : ∃ s ∈ segments, s ≠ .scope) :
    ∃ first rest, segments.flatMap Segment.suffixes = .nested first :: rest := by
  induction segments with
  | nil => simp at h
  | cons s segments ih =>
    cases s with
    | scope =>
      have h : ∃ s ∈ segments, s ≠ .scope := by simpa using h
      exact ih h
    | declared name suffixes => exact ⟨name, _, rfl⟩

theorem nested_eq_append {segments : List Segment} {first : Identifier} {rest : List Suffix}
    (h : segments.flatMap Segment.suffixes = .nested first :: rest) :
    nested (pathOf segments).toList = first.chars ++ rest.flatMap Suffix.chars := by
  have hne : segments ≠ [] := by
    rintro rfl
    cases h
  have hfilter : (segments.filter Segment.isDeclared).map Segment.chars ≠ [] := by
    intro hnil
    have hall := dollar_cons_declared segments
    rw [List.map_eq_nil_iff.mp hnil, h] at hall
    cases hall
  have hcons := cons_intercalate '$' hfilter
  rw [List.flatMap_map, dollar_cons_declared, h, ← nested_pathOf hne] at hcons
  exact (List.cons.inj hcons).2

theorem namesOf_eq_cons {segments : List Segment} {first : Identifier} {rest : List Suffix}
    (h : segments.flatMap Segment.suffixes = .nested first :: rest) :
    namesOf segments = first :: rest.filterMap Suffix.name? := by
  have hflat : namesOf segments = (segments.flatMap Segment.suffixes).filterMap Suffix.name? := by
    rw [List.filterMap_flatMap, namesOf, funext Segment.names_eq]
  rw [hflat, h]
  rfl

theorem collapseFrom_suffixes (suffixes : List Suffix) : ∀ skipping,
    collapseFrom skipping (suffixes.flatMap Suffix.chars) =
      suffixes.flatMap Suffix.collapsed := by
  induction suffixes with
  | nil => exact fun _ => rfl
  | cons s suffixes ih =>
    intro skipping
    -- what follows the index starts with no digit: a name, another suffix or nothing
    have hname : collapseFrom true (s.nameChars ++ suffixes.flatMap Suffix.chars) =
        s.nameChars ++ suffixes.flatMap Suffix.collapsed := by
      cases hn : s.nameChars with
      | nil => exact ih true
      | cons c cs =>
        have hhead := s.head_nameChars
        have hdollar := s.no_dollar_nameChars
        rw [hn] at hhead hdollar
        rw [List.cons_append, collapseFrom_of_not_isDigit hhead, ← List.cons_append,
          collapseFrom_append hdollar, ih false]
    rw [List.flatMap_cons, List.flatMap_cons, Suffix.chars, Suffix.collapsed, List.cons_append,
      List.append_assoc, collapseFrom_dollar,
      collapseFrom_digits fun d hd => Suffix.isDigit_of_mem_digits hd, hname]
    rfl

/-- The last name among the suffixes is the innermost one; without one, the suffixes do not show. -/
theorem innermost_suffixes {base : List Char} (hbase : '$' ∉ base) (suffixes : List Suffix) :
    innermost (base ++ suffixes.flatMap Suffix.collapsed) =
      ((suffixes.filterMap Suffix.name?).getLast?.map Identifier.chars).getD
        (afterLast '.' base) := by
  induction suffixes using List.reverseRecOn with
  | nil => simpa using innermost_of_not_mem hbase
  | append_singleton suffixes s ih =>
    rw [List.flatMap_append, List.flatMap_singleton, ← List.append_assoc]
    cases hn : s.name? with
    | none =>
      have hc : s.collapsed = ['$'] := by simp [Suffix.collapsed, Suffix.nameChars, hn]
      rw [hc, innermost_append_dollar, ih, List.filterMap_append]
      simp [hn]
    | some name =>
      have hc : s.collapsed = '$' :: name.chars := by
        simp [Suffix.collapsed, Suffix.nameChars, hn]
      rw [hc, innermost_append_name name.ne_nil name.no_dollar, List.filterMap_append]
      simp [hn]

theorem no_dollar_intDigits (n : Int) : '$' ∉ Decimal.intDigits n := by
  have hnat : ∀ n, '$' ∉ Decimal.natDigits n := by
    intro n h
    have := Nat.isDigit_of_mem_toDigits (by decide) (by decide) h
    contradiction
  unfold Decimal.intDigits
  split
  · simpa using hnat n.natAbs
  · exact hnat n.natAbs

/-- Behind the module and its dot a name without separators is what follows the last dot. -/
theorem qualifiedChars_eq_append {m : ModuleTag} (hm : ∀ s, m = .name s → '$' ∉ s.toList)
    (path : String) :
    ∃ before, '$' ∉ before ∧ (∀ name, '.' ∉ name → afterLast '.' (before ++ name) = name) ∧
      (TypeName.mk m path).qualifiedChars = before ++ nested path.toList := by
  cases hs : m.shown? with
  | none =>
    refine ⟨[], List.not_mem_nil, fun name h => afterLast_of_not_mem h, ?_⟩
    rw [qualifiedChars, hs]
    rfl
  | some tag =>
    have htag : '$' ∉ tag := by
      cases m with
      | absent => cases hs
      | name s =>
        obtain ⟨-, rfl⟩ : s ≠ "" ∧ s.toList = tag := by simpa [ModuleTag.shown?] using hs
        exact hm s rfl
      | number n =>
        obtain ⟨-, rfl⟩ : n ≠ 0 ∧ Decimal.intDigits n = tag := by simpa [ModuleTag.shown?] using hs
        exact no_dollar_intDigits n
      | truth b =>
        obtain ⟨-, rfl⟩ : b = true ∧ ['T', 'r', 'u', 'e'] = tag := by
          simpa [ModuleTag.shown?] using hs
        decide
    refine ⟨tag ++ ['.'], by simpa using htag, fun name h => ?_, ?_⟩
    · rw [List.append_assoc, List.singleton_append, afterLast_append tag h]
    · rw [qualifiedChars, hs, List.append_assoc]
      rfl

theorem simple_of_suffixes {m : ModuleTag} (hm : ∀ s, m = .name s → '$' ∉ s.toList)
    {segments : List Segment} {first : Identifier} {rest : List Suffix}
    (h : segments.flatMap Segment.suffixes = .nested first :: rest) :
    (TypeName.mk m (pathOf segments)).simple =
      ((rest.filterMap Suffix.name?).getLast?.getD first).text := by
  obtain ⟨before, hbefore, hlast, hq⟩ := qualifiedChars_eq_append hm (pathOf segments)
  have hbase : '$' ∉ before ++ first.chars := by simpa using ⟨hbefore, first.no_dollar⟩
  rw [nested_eq_append h, ← List.append_assoc] at hq
  have hsimple : simpleChars ((TypeName.mk m (pathOf segments)).qualifiedChars) =
      ((rest.filterMap Suffix.name?).getLast?.map Identifier.chars).getD first.chars := by
    rw [hq, simpleChars, collapse, collapseFrom_append hbase, collapseFrom_suffixes,
      innermost_suffixes hbase, hlast first.chars first.no_dot]
  rw [simple, simpleOf, qualified, String.toList_ofList, hsimple]
  cases (rest.filterMap Suffix.name?).getLast? <;> rfl

/-- What a declaration can stand in: the body of a type or that of a function. -/
inductive Scope
  | type (name : Identifier)
  | function (name : Identifier)

/-- The body of a function is a local scope of its own. -/
def Scope.segments : Scope → List Segment
  | type name => [.declared name []]
  | function name => [.declared name [], .scope]

/-- The path of a type that is declared in scopes, the outermost first. -/
def declaredIn (scopes : List Scope) (name : Identifier) : String :=
  pathOf (scopes.flatMap Scope.segments ++ [.declared name []])

/-- The simple name of a type is the last name that its path declares, whatever the module before it
if that holds no dollar sign. A type that is declared in scopes has the name of its declaration as
its simple name, and its objects are labelled with it. -/
theorem simple_pathOf (m : ModuleTag) (hm : ∀ s, m = .name s → '$' ∉ s.toList) :
    (∀ segments : List Segment, (∃ s ∈ segments, s ≠ .scope) →
      ∃ name, (namesOf segments).getLast? = some name ∧
        (TypeName.mk m (pathOf segments)).simple = name.text) ∧
    ∀ (scopes : List Scope) (name : Identifier),
      (TypeName.mk m (declaredIn scopes name)).simple = name.text ∧
      ∀ (h : Heap) (a : Address) (o : Instance), h.cell a = .object o →
        o.type = ⟨m, declaredIn scopes name⟩ → h.labelOf (.ref a) = .text name.text := by
  have hsegments : ∀ segments : List Segment, (∃ s ∈ segments, s ≠ .scope) →
      ∃ name, (namesOf segments).getLast? = some name ∧
        (TypeName.mk m (pathOf segments)).simple = name.text := by
    intro segments h
    obtain ⟨first, rest, hsuffixes⟩ := exists_flatMap_suffixes h
    refine ⟨_, ?_, simple_of_suffixes hm hsuffixes⟩
    rw [namesOf_eq_cons hsuffixes, List.getLast?_cons]
  refine ⟨hsegments, fun scopes name => ?_⟩
  have hsimple : (TypeName.mk m (declaredIn scopes name)).simple = name.text := by
    obtain ⟨last, hlast, hsimple⟩ :=
      hsegments (scopes.flatMap Scope.segments ++ [.declared name []])
        ⟨.declared name [], by simp, by simp⟩
    have hname : (namesOf (scopes.flatMap Scope.segments ++ [.declared name []])).getLast? =
        some name := by
      rw [namesOf, List.flatMap_append, List.getLast?_append]
      rfl
    obtain rfl : name = last := Option.some.inj (hname.symm.trans hlast)
    exact hsimple
  refine ⟨hsimple, fun h a o ho htype => ?_⟩
  have hcharacters : h.characters? (.ref a) = none := by
    rw [Heap.characters?, ho]
  rw [Heap.labelOf, hcharacters, Heap.typeOf, ho, Cell.typeOf, htype, hsimple]

/-- A local type behind the index of an anonymous one, with another index and a local scope behind
it. -/
theorem simple_pathOf_indexed :
    let segments : List Segment := [.declared (.mk ['f']) [], .scope, .declared (.mk ['A'])
      [.anonymous (.mk ['1']), .indexed (.mk ['2', '0']) (.mk ['B', '3']),
        .anonymous (.mk ['4'])], .scope]
    (∀ s, ModuleTag.name "a.b" = .name s → '$' ∉ s.toList) ∧ (∃ s ∈ segments, s ≠ .scope) ∧
      pathOf segments = "f.<locals>.A$1$20B3$4.<locals>" ∧
      (TypeName.mk (.name "a.b") (pathOf segments)).simple = "B3" := by
  intro segments
  have hm : ∀ s, ModuleTag.name "a.b" = .name s → '$' ∉ s.toList := by
    intro s hs
    rw [← ModuleTag.name.inj hs]
    decide
  have hsome : ∃ s ∈ segments, s ≠ .scope := ⟨_, List.mem_cons_self, by simp⟩
  obtain ⟨name, hlast, hsimple⟩ := (simple_pathOf (.name "a.b") hm).1 segments hsome
  have hname : (namesOf segments).getLast? = some (.mk ['B', '3']) := rfl
  obtain rfl := Option.some.inj (hname.symm.trans hlast)
  exact ⟨hm, hsome, by decide, hsimple⟩

end Depict.TypeName

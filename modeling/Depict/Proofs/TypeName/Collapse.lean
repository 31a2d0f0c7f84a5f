import Depict.Proofs.Text.Trim
import Depict.TypeName
import Mathlib.Data.List.Basic

/-!
# What reducing a name takes away

Collapsing a name takes the digits that directly follow a dollar sign and leaves everything else.
A dollar sign at the end of a collapsed name does not count; behind any other one stands the name
that is innermost, and without one it is what follows the last dot.
-/
namespace Depict.TypeName
open Text

variable {s t : List Char}

theorem collapseFrom_dollar (skipping : Bool) (s : List Char) :
    collapseFrom skipping ('$' :: s) = '$' :: collapseFrom true s := by
  cases skipping <;> rfl

theorem collapseFrom_append (hs : '$' ∉ s) (t : List Char) :
    collapseFrom false (s ++ t) = s ++ collapseFrom false t := by
  induction s with
  | nil => rfl
  | cons c s ih =>
    obtain ⟨hc, hs⟩ := not_or.mp (mt List.mem_cons.mpr hs)
    have hbeq : (c == '$') = false := by simpa using Ne.symm hc
    rw [List.cons_append, collapseFrom, Bool.false_and, if_neg Bool.false_ne_true, hbeq, ih hs,
      List.cons_append]

theorem collapseFrom_digits {ds : List Char} (hds : ∀ d ∈ ds, d.isDigit = true) (t : List Char) :
    collapseFrom true (ds ++ t) = collapseFrom true t := by
  induction ds with
  | nil => rfl
  | cons d ds ih =>
    have hd : (true && d.isDigit) = true := hds d List.mem_cons_self
    rw [List.cons_append, collapseFrom, if_pos hd]
    exact ih fun e he => hds e (List.mem_cons_of_mem d he)

/-- Behind a dollar sign only a digit is read in another way. -/
theorem collapseFrom_of_not_isDigit {c : Char} (hc : c.isDigit = false) (skipping : Bool)
    (s : List Char) : collapseFrom skipping (c :: s) = collapseFrom false (c :: s) := by
  rw [collapseFrom, collapseFrom, hc, Bool.and_false, Bool.and_false]

theorem innermost_append_dollar (s : List Char) : innermost (s ++ ['$']) = innermost s := by
  rw [innermost, innermost, dropEnd_eq_rdropWhile, List.rdropWhile_concat_pos _ _ _ rfl,
    ← dropEnd_eq_rdropWhile]

theorem dropEnd_dollar (hne : t ≠ []) (ht : '$' ∉ t) (s : List Char) :
    dropEnd (· == '$') (s ++ t) = s ++ t := by
  rw [dropEnd_eq_rdropWhile, List.rdropWhile_eq_self_iff]
  intro hwhole
  rw [List.getLast_append_of_ne_nil hwhole hne]
  simpa using ne_of_mem_of_not_mem (List.getLast_mem hne) ht

theorem innermost_append_name (hne : t ≠ []) (ht : '$' ∉ t) (s : List Char) :
    innermost (s ++ '$' :: t) = t := by
  have hcore : dropEnd (· == '$') (s ++ '$' :: t) = s ++ '$' :: t := by
    have h := dropEnd_dollar hne ht (s ++ ['$'])
    rwa [List.append_assoc, List.singleton_append] at h
  have hmem : (s ++ '$' :: t).contains '$' = true := by simp
  simp only [innermost, hcore, hmem, if_true]
  exact afterLast_append s ht

theorem innermost_of_not_mem (hs : '$' ∉ s) : innermost s = afterLast '.' s := by
  cases s with
  | nil => rfl
  | cons c s =>
    have hcore := dropEnd_dollar (List.cons_ne_nil c s) hs []
    have hmem : ¬ (c :: s).contains '$' = true := by simpa using hs
    simp only [innermost, List.nil_append] at hcore ⊢
    rw [hcore, if_neg hmem]

end Depict.TypeName

import Depict.Proofs.Outcome
import Depict.Proofs.Settings.Precedence
import Mathlib.Data.List.Induction

/-!
# Two files as one map

The keys of a map that was declared stand in the order of their first declarations, and a union
puts the new keys of the second map behind those of the first. So the defaults are, key by key
and in their order, what the declarations of both files say.
-/
namespace Depict

namespace Pairs

/-- Keys that are taken out before or after the first occurrences are taken are the same. -/
theorem eraseDups_filter_eraseDups (p : String → Bool) (ks : List String) :
    (ks.eraseDups.filter p).eraseDups = (ks.filter p).eraseDups := by
  -- the rest of the row without its first key is shorter, but no tail of the row
  induction hn : ks.length using Nat.strongRecOn generalizing p ks with
  | ind n ih =>
    cases ks with
    | nil => rfl
    | cons k ks =>
      have hlt : (ks.filter fun b => !b == k).length < n := by
        have := List.length_filter_le (fun b => !b == k) ks
        simp only [List.length_cons] at hn
        omega
      rw [List.eraseDups_cons]
      by_cases hp : p k = true
      · rw [List.filter_cons_of_pos hp, List.filter_cons_of_pos hp, List.eraseDups_cons,
          List.eraseDups_cons, List.filter_filter, ih _ hlt _ _ rfl, List.filter_filter,
          List.filter_filter]
        congr 2
        refine List.filter_congr fun b _ => ?_
        cases p b <;> simp
      · have hrest : (ks.filter fun b => !b == k).filter p = ks.filter p := by
          rw [List.filter_filter]
          refine List.filter_congr fun b _ => ?_
          by_cases hb : b = k
          · simp [hb, hp]
          · simp [hb]
        rw [List.filter_cons_of_neg hp, List.filter_cons_of_neg hp, ih _ hlt _ _ rfl, hrest]

theorem eraseDups_eraseDups (ks : List String) : ks.eraseDups.eraseDups = ks.eraseDups := by
  simpa using eraseDups_filter_eraseDups (fun _ => true) ks

theorem eraseDups_concat (ks : List String) (k : String) :
    (ks ++ [k]).eraseDups = if k ∈ ks then ks.eraseDups else ks.eraseDups ++ [k] := by
  rw [List.eraseDups_append]
  split
  · next h => simp [List.removeAll, h]
  · next h => simp [List.removeAll, h, List.eraseDups_cons]

/-- First occurrences may be taken of both rows before they are taken of the whole. -/
theorem eraseDups_append_eraseDups (ks ls : List String) :
    (ks.eraseDups ++ ls.eraseDups).eraseDups = (ks ++ ls).eraseDups := by
  have hrest : ls.eraseDups.removeAll ks.eraseDups = ls.eraseDups.removeAll ks :=
    List.filter_congr fun k _ => by simp
  rw [List.eraseDups_append, List.eraseDups_append, eraseDups_eraseDups, hrest]
  exact congrArg (ks.eraseDups ++ ·) (eraseDups_filter_eraseDups _ ls)

theorem keys_put {ps : Pairs} (key value : String) :
    (ps.put key value).keys = if key ∈ ps.keys then ps.keys else ps.keys ++ [key] := by
  split
  · next h => exact keys_put_of_mem value h
  · next h =>
    rw [put_of_not_mem value h, keys_append]
    rfl

theorem keys_putNew {ps : Pairs} (key value : String) :
    (ps.putNew key value).keys = if key ∈ ps.keys then ps.keys else ps.keys ++ [key] := by
  unfold putNew
  simp only [isSome_get?_iff]
  split
  · rfl
  · rw [keys_append]
    rfl

/-- A row of declarations gives keys in the order of their first declarations. -/
theorem keys_putAll_nil (ds : Pairs) : keys (putAll [] ds) = ds.keys.eraseDups := by
  induction ds using List.reverseRecOn with
  | nil => rfl
  | append_singleton ds d ih =>
    have hput : putAll [] (ds ++ [d]) = (putAll [] ds).put d.1 d.2 := by
      rw [putAll, putAll, List.foldl_append]
      rfl
    have hone : keys [d] = [d.1] := rfl
    rw [hput, keys_put, keys_append, hone, eraseDups_concat, ih]
    simp only [List.mem_eraseDups]

/-- A union has the keys of both maps in the order of their first occurrence. -/
theorem keys_union {ps : Pairs} (h : ps.keys.eraseDups = ps.keys) (qs : Pairs) :
    (ps.union qs).keys = (ps.keys ++ qs.keys).eraseDups := by
  induction qs using List.reverseRecOn with
  | nil =>
    have hnil : keys [] = [] := rfl
    rw [hnil, List.append_nil, h]
    rfl
  | append_singleton qs q ih =>
    have hstep : ps.union (qs ++ [q]) = (ps.union qs).putNew q.1 q.2 := by
      rw [union, union, List.foldl_append]
      rfl
    have hone : keys [q] = [q.1] := rfl
    rw [hstep, keys_putNew, keys_append, hone, ← List.append_assoc, eraseDups_concat, ih]
    simp only [List.mem_eraseDups]

end Pairs

/-- A loaded file has the keys that it declares in the order of their first declarations. -/
theorem Source.keys_of_load {path : String} {f : Source} {ps : Pairs} (h : f.load path = .ok ps) :
    ps.keys = f.declarations.keys.eraseDups := by
  cases f with
  | absent =>
    rw [← Except.ok.inj h]
    rfl
  | directory => cases h
  | content bytes =>
    cases hd : Text.Utf8.decode bytes with
    | error m =>
      rw [load, hd] at h
      cases h
    | ok text =>
      rw [load, hd] at h
      rw [declarations, hd, ← Except.ok.inj h, Dotenv.parse_eq_putAll, Pairs.keys_putAll_nil]

/-- A map is the merge of two files: its keys stand in the order of their first declarations, those
of the first file before the others, and the first file that declares a key decides its value by
its last declaration. -/
structure IsMerge (first second : Source) (ps : Pairs) : Prop where
  keys : ps.keys = (first.declarations ++ second.declarations : Pairs).keys.eraseDups
  value : ∀ key, ps.get? key =
    (first.declarations.last? key).or (second.declarations.last? key)

namespace Settings

/-- The defaults are the merge of both files. -/
theorem isMerge_of_readFiles {s : Settings} {ps : Pairs} (h : s.readFiles = .ok ps) :
    IsMerge s.working s.home ps := by
  obtain ⟨working, hw, h⟩ := bind_eq_ok.mp h
  obtain ⟨home, hh, h⟩ := bind_eq_ok.mp h
  rw [← Except.ok.inj h]
  refine ⟨?_, get?_of_readFiles hw hh⟩
  have hwk : working.keys = s.working.declarations.keys.eraseDups := Source.keys_of_load hw
  have hhk : home.keys = s.home.declarations.keys.eraseDups := Source.keys_of_load hh
  have hself : working.keys.eraseDups = working.keys := by rw [hwk, Pairs.eraseDups_eraseDups]
  rw [Pairs.keys_union hself, hwk, hhk, Pairs.eraseDups_append_eraseDups, Pairs.keys_append]

end Settings

end Depict

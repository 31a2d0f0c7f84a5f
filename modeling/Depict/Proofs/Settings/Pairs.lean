import Depict.Settings.Pairs
import Mathlib.Data.List.Induction
import Mathlib.Data.List.Nodup

/-!
# Keys of ordered maps, and rows of declarations

Giving a value to a key adds at most that key, at the end, so distinct keys stay distinct.
After a row of declarations a key has the value of its last one; in a union the first map
that has the key decides.
-/
namespace Depict.Pairs

/-- The keys in order. -/
def keys (ps : Pairs) : List String :=
  ps.map Prod.fst

/-- The map after a row of declarations. -/
def putAll (ps ds : Pairs) : Pairs :=
  ds.foldl (fun ps d => ps.put d.1 d.2) ps

/-- The value of the last declaration of a key in a row. -/
def last? (ds : Pairs) (key : String) : Option String :=
  (ds.filter fun d => d.1 == key).getLast?.map Prod.snd

@[simp] theorem keys_append (ps qs : Pairs) : keys (ps ++ qs) = ps.keys ++ qs.keys :=
  List.map_append

@[simp] theorem putAll_nil (ps : Pairs) : ps.putAll [] = ps := rfl

@[simp] theorem putAll_cons (ps ds : Pairs) (d : String × String) :
    ps.putAll (d :: ds) = (ps.put d.1 d.2).putAll ds := rfl

theorem put_of_not_mem {ps : Pairs} {key : String} (value : String) (h : key ∉ ps.keys) :
    ps.put key value = ps ++ [(key, value)] := by
  induction ps with
  | nil => rfl
  | cons p ps ih =>
    have hp : ¬ (key == p.1) = true := fun hp => h (List.mem_cons.mpr (Or.inl (by simpa using hp)))
    rw [put, if_neg hp, ih fun hps => h (List.mem_cons_of_mem _ hps), List.cons_append]

theorem keys_put_of_mem {ps : Pairs} {key : String} (value : String) (h : key ∈ ps.keys) :
    (ps.put key value).keys = ps.keys := by
  induction ps with
  | nil => cases h
  | cons p ps ih =>
    unfold put
    split
    · next hp =>
      have hp : key = p.1 := by simpa using hp
      simp [keys, hp]
    · next hp =>
      have hne : key ≠ p.1 := by simpa using hp
      have hps : key ∈ keys ps := (List.mem_cons.mp h).resolve_left hne
      exact congrArg (p.1 :: ·) (ih hps)

theorem nodup_keys_put {ps : Pairs} (key value : String) (h : ps.keys.Nodup) :
    (ps.put key value).keys.Nodup := by
  by_cases hk : key ∈ ps.keys
  · rw [keys_put_of_mem value hk]
    exact h
  · rw [put_of_not_mem value hk, keys_append]
    exact List.nodup_append.mpr ⟨h, List.nodup_singleton key, by
      intro a ha b hb hab
      rw [hab, List.mem_singleton.mp hb] at ha
      exact hk ha⟩

theorem mem_put {ps : Pairs} {key value : String} {p : String × String}
    (h : p ∈ ps.put key value) : p = (key, value) ∨ p ∈ ps := by
  induction ps with
  | nil => exact Or.inl (List.mem_singleton.mp h)
  | cons q ps ih =>
    unfold put at h
    split at h
    · rcases List.mem_cons.mp h with h | h
      · exact Or.inl h
      · exact Or.inr (List.mem_cons_of_mem q h)
    · rcases List.mem_cons.mp h with h | h
      · exact Or.inr (h ▸ List.mem_cons_self)
      · exact (ih h).imp_right (List.mem_cons_of_mem q)

/-- Declarations of new and distinct keys are kept as they are. -/
theorem putAll_of_nodup {ps ds : Pairs} (h : (ps ++ ds).keys.Nodup) :
    ps.putAll ds = ps ++ ds := by
  induction ds generalizing ps with
  | nil => simp
  | cons d ds ih =>
    have hd : d.1 ∉ ps.keys := by
      intro hmem
      rw [keys_append] at h
      exact (List.nodup_append.mp h).2.2 d.1 hmem d.1 List.mem_cons_self rfl
    rw [putAll_cons, put_of_not_mem d.2 hd, ih (by simpa using h)]
    simp

theorem mem_keys_put {ps : Pairs} {key name : String} (value : String) (h : name ∈ ps.keys) :
    name ∈ (ps.put key value).keys := by
  by_cases hk : key ∈ ps.keys
  · rwa [keys_put_of_mem value hk]
  · rw [put_of_not_mem value hk, keys_append]
    exact List.mem_append_left _ h

/-- The later one of two values of a key counts. -/
theorem put_put (ps : Pairs) (key u v : String) : (ps.put key u).put key v = ps.put key v := by
  induction ps with
  | nil => simp [put]
  | cons p ps ih =>
    by_cases hk : key = p.1
    · simp [put, hk]
    · simp [put, hk, ih]

/-- A key that has its place already may have its value before or after another key. -/
theorem put_comm {ps : Pairs} {key name : String} (u v : String) (hne : key ≠ name)
    (h : key ∈ ps.keys) : (ps.put key u).put name v = (ps.put name v).put key u := by
  induction ps with
  | nil => cases h
  | cons p ps ih =>
    by_cases hk : key = p.1
    · have hn : name ≠ p.1 := fun hn => hne (hk.trans hn.symm)
      simp [put, hk, hn]
    · have hps : key ∈ keys ps := (List.mem_cons.mp h).resolve_left hk
      by_cases hn : name = p.1
      · simp [put, hk, hn]
      · simp [put, hk, hn, ih hps]

theorem putAll_append (ps ds es : Pairs) : ps.putAll (ds ++ es) = (ps.putAll ds).putAll es :=
  List.foldl_append

theorem putAll_put_of_not_mem {ps ds : Pairs} {key : String} (value : String)
    (hds : key ∉ ds.keys) (hps : key ∈ ps.keys) :
    (ps.putAll ds).put key value = (ps.put key value).putAll ds := by
  induction ds generalizing ps with
  | nil => rfl
  | cons d ds ih =>
    obtain ⟨hne, hds⟩ := not_or.mp (mt List.mem_cons.mpr hds)
    rw [putAll_cons, putAll_cons, ih hds (mem_keys_put _ hps), put_comm _ _ hne hps]

/-- An update by a map takes one more declaration wherever the map takes it. -/
theorem putAll_put {ps ds : Pairs} (h : ds.keys.Nodup) (key value : String) :
    ps.putAll (ds.put key value) = (ps.putAll ds).put key value := by
  induction ds generalizing ps with
  | nil => rfl
  | cons d ds ih =>
    obtain ⟨hd, hds⟩ := List.nodup_cons.mp h
    by_cases hk : key = d.1
    · have hself : d.1 ∈ (ps.put d.1 d.2).keys := by
        by_cases hmem : d.1 ∈ ps.keys
        · exact mem_keys_put _ hmem
        · simp [put_of_not_mem _ hmem, keys]
      have hput : put (d :: ds) key value = (key, value) :: ds := by simp [put, hk]
      rw [hput, putAll_cons, putAll_cons, hk, putAll_put_of_not_mem value hd hself, put_put]
    · have hput : put (d :: ds) key value = d :: put ds key value := by simp [put, hk]
      rw [hput, putAll_cons, putAll_cons, ih hds]

theorem nodup_keys_putAll {ps : Pairs} (h : ps.keys.Nodup) (ds : Pairs) :
    (ps.putAll ds).keys.Nodup := by
  induction ds generalizing ps with
  | nil => exact h
  | cons d ds ih => exact ih (nodup_keys_put d.1 d.2 h)

/-- An update by a row of declarations is an update by the map that they give. -/
theorem putAll_putAll_nil (ps ds : Pairs) : ps.putAll (putAll [] ds) = ps.putAll ds := by
  have hnil : (keys []).Nodup := List.nodup_nil
  induction ds using List.reverseRecOn with
  | nil => rfl
  | append_singleton ds d ih =>
    rw [putAll_append, putAll_append, putAll_cons, putAll_nil,
      putAll_put (nodup_keys_putAll hnil ds), ih]
    rfl

/-- An update keeps the keys in their places and puts the new ones behind them. -/
theorem keys_putAll {ps ds : Pairs} (h : ds.keys.Nodup) :
    (ps.putAll ds).keys = ps.keys ++ (keys ds).filter (· ∉ ps.keys) := by
  induction ds generalizing ps with
  | nil => simp [keys]
  | cons d ds ih =>
    obtain ⟨hd, hds⟩ := List.nodup_cons.mp h
    have hkeys : keys (d :: ds) = d.1 :: keys ds := rfl
    rw [putAll_cons, ih hds, hkeys]
    by_cases hmem : d.1 ∈ ps.keys
    · rw [keys_put_of_mem _ hmem, List.filter_cons_of_neg (by simpa using hmem)]
    · have hone : keys [(d.1, d.2)] = [d.1] := rfl
      rw [put_of_not_mem _ hmem, keys_append, List.filter_cons_of_pos (by simpa using hmem),
        List.append_assoc, hone, List.singleton_append]
      congr 2
      refine List.filter_congr fun key hkey => ?_
      have hne : key ≠ d.1 := fun heq => hd (heq ▸ hkey)
      simp [hne]

theorem isSome_get?_iff {ps : Pairs} {key : String} :
    (ps.get? key).isSome = true ↔ key ∈ ps.keys := by
  induction ps with
  | nil => simp [get?, keys]
  | cons p ps ih =>
    rw [get?_cons]
    by_cases h : p.1 = key
    · simp [h, keys]
    · rw [if_neg h, ih]
      simp [keys, Ne.symm h]

theorem get?_append (ps qs : Pairs) (key : String) :
    get? (ps ++ qs) key = (ps.get? key).or (qs.get? key) :=
  List.lookup_append

theorem last?_cons (ds : Pairs) (d : String × String) (key : String) :
    last? (d :: ds) key = (last? ds key).or (if d.1 = key then some d.2 else none) := by
  unfold last?
  split
  · next h =>
    rw [List.filter_cons_of_pos (by simpa using h), List.getLast?_cons]
    cases (List.filter (fun d => d.1 == key) ds).getLast? <;> simp
  · next h =>
    rw [List.filter_cons_of_neg (by simpa using h), Option.or_none]

/-- The last declaration of a key decides its value. -/
theorem get?_putAll (ps ds : Pairs) (key : String) :
    (ps.putAll ds).get? key = (ds.last? key).or (ps.get? key) := by
  induction ds generalizing ps with
  | nil => simp [last?]
  | cons d ds ih =>
    rw [putAll_cons, ih, get?_put, last?_cons, Option.or_assoc]
    split <;> simp

/-- In a map the last declaration of a key is its only one. -/
theorem last?_of_nodup {ds : Pairs} (h : ds.keys.Nodup) (key : String) :
    ds.last? key = ds.get? key := by
  induction ds with
  | nil => rfl
  | cons d ds ih =>
    obtain ⟨hd, hds⟩ := List.nodup_cons.mp h
    rw [last?_cons, get?_cons, ih hds]
    by_cases hk : d.1 = key
    · have hnone : get? ds key = none := by
        rw [← Option.not_isSome_iff_eq_none, isSome_get?_iff, ← hk]
        exact hd
      simp [hk, hnone]
    · simp [hk]

theorem get?_putNew (ps : Pairs) (key value name : String) :
    (ps.putNew key value).get? name =
      (ps.get? name).or (if key = name then some value else none) := by
  unfold putNew
  split
  · next h =>
    split
    · next hk =>
      subst hk
      rw [Option.or_of_isSome h]
    · rw [Option.or_none]
  · rw [get?_append, get?_cons]
    rfl

/-- In a union the first map that has the key decides. -/
theorem get?_union (ps qs : Pairs) (key : String) :
    (ps.union qs).get? key = (ps.get? key).or (qs.get? key) := by
  unfold union
  induction qs generalizing ps with
  | nil => exact (Option.or_none ..).symm
  | cons q qs ih =>
    rw [List.foldl_cons, ih, get?_putNew, get?_cons, Option.or_assoc]
    split
    · rw [Option.some_or]
    · rw [Option.none_or]

end Depict.Pairs

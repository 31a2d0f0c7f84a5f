/-!
# Ordered maps

Keys with their values in the order in which the keys were first given. A key that
is given again keeps its place.
-/
namespace Depict

/-- Keys with their values, in order. -/
abbrev Pairs := List (String × String)

namespace Pairs

def get? (ps : Pairs) (key : String) : Option String :=
  List.lookup key ps

/-- The map in which the key has this value. -/
def put : Pairs → String → String → Pairs
  | [], key, value => [(key, value)]
  | p :: ps, key, value => if key == p.1 then (key, value) :: ps else p :: put ps key value

/-- The map with this value under the key, unless the key is there already. -/
def putNew (ps : Pairs) (key value : String) : Pairs :=
  if (ps.get? key).isSome then ps else ps ++ [(key, value)]

/-- The first map with the keys of the second that it lacks. -/
def union (ps qs : Pairs) : Pairs :=
  qs.foldl (fun acc q => acc.putNew q.1 q.2) ps

def remove (ps : Pairs) (key : String) : Pairs :=
  ps.filter fun p => key != p.1

theorem get?_cons (p : String × String) (ps : Pairs) (key : String) :
    get? (p :: ps) key = if p.1 = key then some p.2 else ps.get? key := by
  rw [get?, List.lookup_cons]
  by_cases h : p.1 = key
  · simp [h]
  · have hb : (key == p.1) = false := by simpa using Ne.symm h
    rw [hb, if_neg h]
    rfl

/-- The map has the new value under the key and is as before under any other. -/
theorem get?_put (ps : Pairs) (key value name : String) :
    (ps.put key value).get? name = if key = name then some value else ps.get? name := by
  induction ps with
  | nil => exact get?_cons (key, value) [] name
  | cons p ps ih =>
    unfold put
    split
    · next hk =>
      have hk : key = p.1 := by simpa using hk
      rw [get?_cons, get?_cons, hk]
      split <;> rfl
    · next hk =>
      have hk : key ≠ p.1 := by simpa using hk
      rw [get?_cons, get?_cons, ih]
      split
      · next hp => rw [if_neg fun h => hk (h.trans hp.symm)]
      · rfl

end Pairs

end Depict

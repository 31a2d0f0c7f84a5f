import Depict.Sameness.Grid

/-!
# When values are the same

Containers are the same when they hold the same, item by item within one kind:
dictionaries and sets look their keys up, in any order. All other objects are the
same only as themselves. Comparing stops at the first difference, so a fault in a
later item does not show.
-/
namespace Depict.Heap

/-- Whether two lists are the same item by item. -/
def sameItems (same : Value → Value → Except Fault Bool) :
    List Value → List Value → Except Fault Bool
  | [], [] => .ok true
  | v :: vs, w :: ws => do if ← same v w then sameItems same vs ws else return false
  | _, _ => .ok false

/-- Whether two keys are the same, where `live` are the tuples that are not being compared yet. -/
def sameKeyFrom (h : Heap) (live : List Address) (v w : Value) : Except Fault Bool :=
  match h.standsFor v, h.standsFor w with
  | .atom a, .atom b => a.sameKey b
  | .ref a, .ref b =>
    if a = b then .ok true
    else if a ∈ live then
      match h.cell a, h.cell b with
      | .tuple vs, .tuple ws =>
        if vs.length = ws.length then sameItems (sameKeyFrom h (live.erase a)) vs ws
        else .ok false
      | _, _ => .ok false
    else .ok false
  | _, _ => .ok false
termination_by live.length
decreasing_by
  have := List.length_erase_of_mem ‹a ∈ live›
  have := List.length_pos_of_mem ‹a ∈ live›
  omega

/-- Whether two keys are the same. -/
def sameKey (h : Heap) (v w : Value) : Except Fault Bool :=
  h.sameKeyFrom h.addresses v w

/-- Whether every pair has the same value under its key in another dictionary. -/
def samePairs (sameKey same : Value → Value → Except Fault Bool) (qs : List (Value × Value)) :
    List (Value × Value) → Except Fault Bool
  | [] => .ok true
  | p :: ps => do
    match ← qs.findM? fun q => sameKey q.1 p.1 with
    | none => return false
    | some q => if ← same p.2 q.2 then samePairs sameKey same qs ps else return false

/-- Whether two objects that hold others are the same. -/
def sameCells (sameKey same : Value → Value → Except Fault Bool) :
    Cell → Cell → Except Fault Bool
  | .list vs, .list ws => if vs.length = ws.length then sameItems same vs ws else .ok false
  | .tuple vs, .tuple ws => sameItems same vs ws
  | .set vs, .set ws =>
    if vs.length = ws.length then vs.allM fun v => ws.anyM (sameKey · v) else .ok false
  | .dict ps, .dict qs => if ps.length = qs.length then samePairs sameKey same qs ps else .ok false
  | _, _ => .ok false

/-- Whether two values are the same, where `live` are the objects that are not being compared
yet. -/
def sameFrom (h : Heap) (live : List Address) (v w : Value) : Except Fault Bool :=
  match h.standsFor v, h.standsFor w with
  | .atom a, .atom b => a.same b
  | .atom (.sized s), .ref b => h.sameGrid s (.ref b)
  | .ref a, .atom (.sized s) => h.sameGrid s (.ref a)
  | .ref a, .ref b =>
    if a = b then .ok true
    else if a ∈ live then
      sameCells h.sameKey (sameFrom h (live.erase a)) (h.cell a) (h.cell b)
    else .error .endless
  | _, _ => .ok false
termination_by live.length
decreasing_by
  have := List.length_erase_of_mem ‹a ∈ live›
  have := List.length_pos_of_mem ‹a ∈ live›
  omega

/-- Whether two values are the same. -/
def same (h : Heap) (v w : Value) : Except Fault Bool :=
  h.sameFrom h.addresses v w

/-- Whether two entries are the same; the values are compared only under the same name. -/
def sameEntry (h : Heap) (d e : Entry) : Except Fault Bool := do
  if ← h.same d.name e.name then h.same d.value e.value else return false

end Depict.Heap

import Depict.Description.Recording
import Depict.Sameness.Value
import Depict.Heap.TypeOf

/-!
# What happens to a heap

The steps in which objects are made and changed: descriptions are begun and
filled, lists, dictionaries and plain objects are altered. A step that fails
leaves the heap as it was, and a step that does not suit its object does nothing.
-/
namespace Depict

/-- A step on a heap, on the object at an address unless it makes a new one. -/
inductive Action
  | make (c : Cell)
  | describe (subject : Value)
  | construct (label : Value)
  | add (target : Address) (name value : Value)
  | addValue (target : Address) (value : Value)
  | omitNulls (target : Address)
  | append (target : Address) (item : Value)
  | dropLast (target : Address)
  | put (target : Address) (key value : Value)
  | setText (target : Address) (text : OwnText)
  | setRaises (target : Address) (r : Raised)

/-- The values that a dictionary or a set looks up. -/
def Cell.keys : Cell → List Value
  | dict pairs => pairs.map (·.1)
  | set items => items
  | _ => []

namespace Heap

def updateDescription (h : Heap) (a : Address)
    (f : Description → Except Fault Description) : Except Fault Heap :=
  match h.cell a with
  | .description d => (f d).map fun d => h.set a (.description d)
  | _ => .ok h

/-- The pairs of a dictionary with a value under a key; a key that is there already stays as it is
and keeps its place. -/
def putPair (h : Heap) (key value : Value) :
    List (Value × Value) → Except Fault (List (Value × Value))
  | [] => .ok [(key, value)]
  | p :: ps => do
    if ← h.sameKey p.1 key then return (p.1, value) :: ps
    else return p :: (← putPair h key value ps)

/-- What keeps a value from being a key: it is a list, a dictionary, a set or a span of time without
a unit, or a tuple with such an item. -/
def keyObstacleFrom (h : Heap) (live : List Address) : Value → Option Fault
  | .atom (.sized (.timeSpan t)) =>
    if t.unit = .generic && !t.isAbsent then some .unitlessKey else none
  | .atom _ => none
  | .ref a =>
    match h.cell a with
    | .list _ => some (.unhashable "list")
    | .dict _ => some (.unhashable "dict")
    | .set _ => some (.unhashable "set")
    | .tuple items =>
      if a ∈ live then items.findSome? fun v => keyObstacleFrom h (live.erase a) v else none
    | _ => none
termination_by live.length
decreasing_by
  have := List.length_erase_of_mem ‹a ∈ live›
  have := List.length_pos_of_mem ‹a ∈ live›
  omega

def keyObstacle? (h : Heap) (v : Value) : Option Fault :=
  h.keyObstacleFrom h.addresses v

/-- The heap with one more object, whose keys must be fit for it. -/
def make (h : Heap) (c : Cell) : Except Fault (Heap × Address) :=
  match c.keys.findSome? h.keyObstacle? with
  | some f => .error f
  | none => .ok (h.alloc c)

/-- The heap with a value under a key of the dictionary at an address. -/
def put (h : Heap) (a : Address) (key value : Value) : Except Fault Heap :=
  match h.cell a with
  | .dict pairs =>
    match h.keyObstacle? key with
    | some f => .error f
    | none => (h.putPair key value pairs).map fun pairs => h.set a (.dict pairs)
  | _ => .ok h

def dropLast (h : Heap) (a : Address) : Except Fault Heap :=
  match h.cell a with
  | .list [] => .error .emptyList
  | .list items => .ok (h.set a (.list items.dropLast))
  | _ => .ok h

def updateObject (h : Heap) (a : Address) (f : Instance → Instance) : Heap :=
  match h.cell a with
  | .object o => h.set a (.object (f o))
  | _ => h

def append (h : Heap) (a : Address) (item : Value) : Heap :=
  match h.cell a with
  | .list items => h.set a (.list (items ++ [item]))
  | _ => h

/-- A description of a value, under the label that the value gets. -/
def describe (h : Heap) (subject : Value) : Except Fault Description := do
  let subject ← subject.required "subject"
  Description.construct (h.labelOf subject)

/-- The heap after a step, and the address of the object that the step made or was on. -/
def perform (h : Heap) : Action → Except Fault (Heap × Address)
  | .make c => h.make c
  | .describe subject => (h.describe subject).map fun d => h.alloc (.description d)
  | .construct label => (Description.construct label).map fun d => h.alloc (.description d)
  | .add a name value => (h.updateDescription a (·.add name value)).map (·, a)
  | .addValue a value => (h.updateDescription a (·.addValue value)).map (·, a)
  | .omitNulls a => (h.updateDescription a fun d => .ok d.omitNulls).map (·, a)
  | .append a item => .ok (h.append a item, a)
  | .dropLast a => (h.dropLast a).map (·, a)
  | .put a key value => (h.put a key value).map (·, a)
  | .setText a text => .ok (h.updateObject a fun o => { o with text, raises := none }, a)
  | .setRaises a r => .ok (h.updateObject a fun o => { o with raises := some r }, a)

/-- The heap after a step, which is the heap before it if the step fails. -/
def after (h : Heap) (s : Action) : Heap :=
  match h.perform s with
  | .ok (h', _) => h'
  | .error _ => h

/-- The heap after steps in order, whether they succeed or fail. -/
def run (h : Heap) (steps : List Action) : Heap :=
  steps.foldl after h

end Heap

end Depict

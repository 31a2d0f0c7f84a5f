import Depict.Settings.Store
import Depict.Show.Plain
import Depict.Text.Casing
import Depict.Text.Quoted

/-!
# Looking up settings

A setting has the value that the environment gives it, or else its default; a
value that is blank counts only where blank values are allowed. The defaults are
read only when the environment does not decide. A truth value is one of twelve
words in any case.
-/
namespace Depict

/-- How a setting is looked up. -/
structure Query where
  name : String
  trims : Bool
  allowsBlank : Bool

namespace Query

/-- The query for a setting whose blanks at the ends do not matter. -/
def named (name : String) : Query :=
  ⟨name, true, false⟩

/-- A value as the query takes it. -/
def normalize (q : Query) (value : String) : String :=
  if q.trims then String.ofList (Text.trim value.toList) else value

/-- The value as the query takes it, if it is there and counts. -/
def usable? (q : Query) (value : Option String) : Option String :=
  (value.map q.normalize).filter fun v => q.allowsBlank || !v.isEmpty

end Query

namespace Settings

/-- The value of a setting, if it has one, and the settings afterwards, which may have read the
defaults. -/
def resolve (s : Settings) (q : Query) : Except Fault (Option String) × Settings :=
  match q.usable? (s.environment.get? q.name) with
  | some v => (.ok (some v), s)
  | none =>
    match s.loadDefaults with
    | (.error f, s) => (.error f, s)
    | (.ok ps, s) => (.ok (q.usable? (ps.get? q.name)), s)

/-- The fault of a required setting that is missing. -/
def missing (name : String) : Fault :=
  .misconfigured (.missing (Text.quote name) none)

/-- The value of a setting as a text; without one, the alternative, unless a value is required. -/
def text (s : Settings) (q : Query) (alternative : Option String) (required : Bool) :
    Except Fault (Option String) × Settings :=
  match s.resolve q with
  | (.error f, s) => (.error f, s)
  | (.ok (some v), s) => (.ok (some v), s)
  | (.ok none, s) => (if required then .error (missing q.name) else .ok alternative, s)

/-- The words for truth values, in the order of their characters. -/
def truthWords : List (String × Bool) :=
  [("0", false), ("1", true), ("f", false), ("false", false), ("n", false), ("no", false),
    ("off", false), ("on", true), ("t", true), ("true", true), ("y", true), ("yes", true)]

/-- What is told about a word for no truth value. -/
def truthReason : String :=
  "Expected a boolean (allowed: [" ++ joined (truthWords.map fun w => Text.quote w.1) ++ "])"

/-- The truth value that a word stands for. -/
def truthOf (name raw : String) : Except Fault Bool :=
  match truthWords.lookup (String.ofList (Text.lower raw.toList)) with
  | some b => .ok b
  | none => .error (.misconfigured (.invalid name (Text.quote raw) (some truthReason)))

/-- The value of a setting as a truth value; without one, the alternative, unless a value is
required and there is no alternative. -/
def flag (s : Settings) (name : String) (alternative : Option Bool) (required : Bool) :
    Except Fault (Option Bool) × Settings :=
  match s.resolve (.named name) with
  | (.error f, s) => (.error f, s)
  | (.ok (some raw), s) => ((truthOf name raw).map some, s)
  | (.ok none, s) =>
    (if required && alternative.isNone then .error (missing name) else .ok alternative, s)

end Settings

end Depict

import Depict.Settings.Lookup
import Depict.Heap.TypeOf
import Depict.Show.Inspect
import Depict.Text.Digits

/-!
# Levels

A level is a whole number that weighs a message. It is given as a number, by one of
eight names in any case, or by a numeral in the digits of any script. Which levels
have a name is a table of its own; other levels are named by their number.
-/
namespace Depict
open Decimal Text

/-- A level; a truth value stands for zero or one and stays what it is. -/
inductive Level
  | number (n : Int)
  | truth (b : Bool)
  deriving DecidableEq

namespace Level

def rank : Level → Int
  | number n => n
  | truth b => if b then 1 else 0

/-- The level that is taken when none is given. -/
def standard : Level :=
  .number 20

/-- The level names that can be given. -/
def names : List (String × Int) :=
  [("CRITICAL", 50), ("FATAL", 50), ("ERROR", 40), ("WARN", 30), ("WARNING", 30), ("INFO", 20),
    ("DEBUG", 10), ("NOTSET", 0)]

/-- How the level of a message is named. -/
def title (rank : Int) : String :=
  if rank = 50 then "CRITICAL"
  else if rank = 40 then "ERROR"
  else if rank = 30 then "WARNING"
  else if rank = 20 then "INFO"
  else if rank = 10 then "DEBUG"
  else if rank = 0 then "NOTSET"
  else "Level " ++ String.ofList (intDigits rank)

/-- The setting that holds the level. -/
def setting : String :=
  "OBJTOOLS_LOG_LEVEL"

/-- The fault of a level that is neither a name nor a number; `shown` is the level as it shows. -/
def unknown (shown : String) : Fault :=
  .misconfigured (.invalid setting shown (some "Expected a logging level name or number"))

/-- The whole number that digits spell. Its length is checked on the decimal digits that it starts
with, before any digit that is no decimal one is refused. -/
def ofDigits (digits : List Char) : Except Fault Level :=
  let leading := digits.takeWhile fun c => (decimalValue? c).isSome
  if digitLimit < leading.length then .error (.overlong leading.length)
  else if digits.all fun c => (decimalValue? c).isSome then .ok (.number (decimalNumber digits))
  else .error (.notWhole (String.ofList ((quoteChars digits).take 200)))

/-- The level that a text spells, blanks at its ends aside. -/
def ofText (characters shown : String) : Except Fault Level :=
  let body := trim characters.toList
  if !body.isEmpty && body.all isDigit then ofDigits body
  else match names.lookup (String.ofList (upper body)) with
    | some n => .ok (.number n)
    | none => .error (unknown shown)

def isBlankByte (b : UInt8) : Bool :=
  b == 32 || (9 ≤ b && b ≤ 13)

def isDigitByte (b : UInt8) : Bool :=
  48 ≤ b && b ≤ 57

/-- The level that bytes spell; only numerals do, and bytes are never a name. -/
def ofBytes (bytes : List UInt8) : Except Fault Level :=
  let body := ((bytes.dropWhile isBlankByte).reverse.dropWhile isBlankByte).reverse
  if !body.isEmpty && body.all isDigitByte then
    ofDigits (body.map fun b => Char.ofNat b.toNat)
  else .error (unknown (quoteBytes bytes))

end Level

/-- A level as it is asked for. -/
inductive LevelRequest
  | absent
  | given (l : Level)
  /-- A text, by its characters and as it shows. -/
  | word (characters shown : String)
  | octets (bytes : List UInt8)
  /-- Something that is no level and no text, as a complaint calls it. -/
  | unsuited (holder : String)

namespace LevelRequest

def ofText (s : String) : LevelRequest :=
  .word s (quote s)

/-- The level asked for; without one, the level that is set, or else the standard one. -/
def resolve (r : LevelRequest) (s : Settings) : Except Fault Level × Settings :=
  match r with
  | given l => (.ok l, s)
  | word characters shown => (Level.ofText characters shown, s)
  | octets bytes => (Level.ofBytes bytes, s)
  | unsuited holder => (.error (.notTrimmable holder), s)
  | absent =>
    match s.resolve (.named Level.setting) with
    | (.error f, s) => (.error f, s)
    | (.ok none, s) => (.ok .standard, s)
    | (.ok (some v), s) => (Level.ofText v (quote v), s)

end LevelRequest

namespace Heap

/-- The request that a value makes as a level. -/
def levelRequest (h : Heap) (v : Value) : LevelRequest :=
  match h.characters? v with
  | some s =>
    match h.inspect v with
    | .ok shown => .word s shown
    | .error _ => .word s s
  | none =>
    match v with
    | .atom .null => .absent
    | .atom (.bool b) => .given (.truth b)
    | .atom (.int n) => .given (.number n)
    | .atom (.derivedInt n _) => .given (.number n)
    | .atom (.bytes bs) => .octets bs
    | .atom a => .unsuited ("'" ++ a.typeOf.inComplaint ++ "' object")
    | .ref a =>
      match h.cell a with
      | .member ⟨.number, _, _, .atom (.int n), _⟩ => .given (.number n)
      | .type t _ => .unsuited ("type object '" ++ t.inComplaint ++ "'")
      | c => .unsuited ("'" ++ c.typeOf.inComplaint ++ "' object")

end Heap

end Depict

import Depict.Logging.Level
import Depict.Logging.Timestamp

/-!
# Messages and how they are written

A record is a message of a named logger at a level and a point in time. A console
writes it on a line, in the technical style with all of that, or in the friendly
style with the message alone.
-/
namespace Depict

/-- A message. -/
structure Record where
  logger : String
  rank : Int
  message : String
  seconds : Int
  millis : Nat

/-- The record of a message to the logger of this name; the logger without a name is the root. -/
def Record.make (logger : String) (rank : Int) (message : String) (seconds : Int) (millis : Nat) :
    Record :=
  ⟨if logger.isEmpty then "root" else logger, rank, message, seconds, millis⟩

/-- How messages are written. -/
inductive Style
  | technical
  | friendly
  deriving DecidableEq

namespace Style

/-- The pattern of a line. -/
def pattern : Style → String
  | technical => "%(asctime)s%(msecs)03d - %(name)s - %(levelname)s - %(message)s"
  | friendly => "%(message)s"

/-- The pattern of a date and time of day, if the style writes them. -/
def datePattern? : Style → Option String
  | technical => some "%Y-%m-%d %H:%M:%S"
  | friendly => none

/-- The line for a record. -/
def line (r : Record) : Style → String
  | technical =>
    timestamp r.seconds ++ padded 3 r.millis ++ " - " ++ r.logger ++ " - " ++ Level.title r.rank ++
      " - " ++ r.message ++ "\n"
  | friendly => r.message ++ "\n"

/-- The setting that chooses the style. -/
def setting : String :=
  "OBJTOOLS_LOG_USER_FRIENDLY"

/-- The style that is asked for; without a wish, the one that is set, or else the technical one. -/
def resolve (friendly? : Option Bool) (s : Settings) : Except Fault Style × Settings :=
  let ofFlag (b : Bool) : Style := if b then friendly else technical
  match friendly? with
  | some b => (.ok (ofFlag b), s)
  | none =>
    match s.flag setting (some false) false with
    | (.error f, s) => (.error f, s)
    | (.ok b, s) => (.ok (ofFlag (b.getD false)), s)

end Style

end Depict

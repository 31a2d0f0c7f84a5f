import Depict.Logging.Record

/-!
# Handlers

Messages that weigh enough go to the handlers in their order. Some are the host
program's own, and at most one is the console that was set up here last. A console
that is replaced is detached and closed first; the host's handlers are never touched.
-/
namespace Depict

/-- A console, told apart from earlier ones by its serial number. -/
structure Console where
  serial : Nat
  level : Level
  style : Style
  deriving DecidableEq

/-- What receives messages. -/
inductive Handler
  | host (number : Nat)
  | console (c : Console)
  deriving DecidableEq

/-- What came out of a step: the text on the console, and the messages that the host's handlers got,
each with the number of the handler. -/
structure Output where
  console : String
  hosts : List (Nat × Record)

namespace Output

def none : Output := ⟨"", []⟩

def append (o p : Output) : Output :=
  ⟨o.console ++ p.console, o.hosts ++ p.hosts⟩

end Output

/-- The handlers with the level that lets messages through to them, the console that was set up
last, and what its closing raises, if anything. Consoles and host handlers are counted, and the
handlers that were closed are kept. -/
structure Logging where
  level : Level
  handlers : List Handler
  installed : Option Console
  obstacle : Option Raised
  consoles : Nat
  hosts : Nat
  closed : List Handler

namespace Logging

/-- No handler, and the level of warnings. -/
def initial : Logging :=
  ⟨.number 30, [], none, none, 0, 0, []⟩

/-- What comes out when a handler gets a record. -/
def deliver (r : Record) : Handler → Output
  | .host n => ⟨"", [(n, r)]⟩
  | .console c => if c.level.rank ≤ r.rank then ⟨c.style.line r, []⟩ else .none

/-- What comes out when a record is logged. -/
def emit (l : Logging) (r : Record) : Output :=
  if 0 < r.rank && l.level.rank ≤ r.rank then
    l.handlers.foldl (fun out h => out.append (deliver r h)) .none
  else .none

/-- Whether the console that was set up last receives messages. -/
def isAttached (l : Logging) : Bool :=
  match l.installed with
  | none => false
  | some c => l.handlers.contains (.console c)

/-- The handlers without the console that was set up last. -/
def detach (l : Logging) : Logging :=
  match l.installed with
  | none => l
  | some c => { l with handlers := l.handlers.erase (.console c) }

/-- What is logged when closing a console fails. -/
def closingNote (r : Raised) : Record :=
  ⟨"objtools.logging_config", 10, "Handler close failed for root logger: " ++ r.shown, 0, 0⟩

/-- The handlers after the console that was set up last is detached and closed. A system fault in
closing is only noted; any other fault leaves the console set up. -/
def retire (l : Logging) : Except Fault Unit × Logging × Output :=
  match l.installed with
  | none => (.ok (), l, .none)
  | some c =>
    let l := { l.detach with closed := l.closed ++ [Handler.console c] }
    let gone := { l with installed := none, obstacle := none }
    match l.obstacle with
    | none => (.ok (), gone, .none)
    | some r =>
      if r.kind = .system then (.ok (), gone, l.emit (closingNote r))
      else (.error (.raised r), l, .none)

/-- The handlers with a new console at their end, whose level lets messages through. -/
def install (l : Logging) (level : Level) (style : Style) : Logging :=
  let c : Console := ⟨l.consoles, level, style⟩
  { l with
    level, handlers := l.handlers ++ [.console c], installed := some c, obstacle := none,
    consoles := l.consoles + 1 }

def addHost (l : Logging) : Logging :=
  { l with handlers := l.handlers ++ [.host l.hosts], hosts := l.hosts + 1 }

def removeHost (l : Logging) (number : Nat) : Logging :=
  { l with handlers := l.handlers.erase (.host number) }

/-- The handlers with one of the host's that was made before; one that is there stays in its place. -/
def restoreHost (l : Logging) (number : Nat) : Logging :=
  if number < l.hosts && !l.handlers.contains (.host number) then
    { l with handlers := l.handlers ++ [.host number] }
  else l

/-- The handlers with another level to let messages through. -/
def setLevel (l : Logging) (level : Level) : Logging :=
  { l with level }

/-- The console that was set up last raises this when it is closed. -/
def breakClose (l : Logging) (r : Raised) : Logging :=
  if l.installed.isSome then { l with obstacle := some r } else l

/-- What a handler is to these handlers. -/
inductive Role
  | installed
  | foreign
  | stale
  deriving DecidableEq

def roleOf (l : Logging) : Handler → Role
  | .host _ => .foreign
  | .console c => if l.installed = some c then .installed else .stale

end Logging

end Depict

import Depict.Logging.Handlers

/-!
# Sessions

A session holds the settings and the handlers of a program and changes both step
by step. Setting up logging resolves the level and the style first, and only then
replaces the console; it does nothing while a console is attached, unless it is forced.
-/
namespace Depict

/-- A wish for a console. -/
structure SetupRequest where
  level : LevelRequest
  friendly : Option Bool
  force : Bool

/-- The level and the style that are wished for. -/
def SetupRequest.resolve (r : SetupRequest) (s : Settings) :
    Except Fault (Level × Style) × Settings :=
  match r.level.resolve s with
  | (.error f, s) => (.error f, s)
  | (.ok level, s) =>
    match Style.resolve r.friendly s with
    | (.error f, s) => (.error f, s)
    | (.ok style, s) => (.ok (level, style), s)

/-- The settings and the handlers of a program. -/
structure Session where
  settings : Settings
  logging : Logging

/-- A step of a session. -/
inductive Step
  | setVariable (name value : String)
  | unsetVariable (name : String)
  | setSource (place : Place) (source : Source)
  | forget
  | loadFile (place : Place)
  | loadDefaults
  | text (q : Query) (alternative : Option String) (required : Bool)
  | flag (name : String) (alternative : Option Bool) (required : Bool)
  | setup (r : SetupRequest)
  | log (r : Record)
  | simpleName (name : String)
  | addHost
  | removeHost (number : Nat)
  | restoreHost (number : Nat)
  | detach
  | setLevel (level : Level)
  | breakClose (r : Raised)

/-- What a step answers. -/
inductive Reply
  | done
  | pairs (ps : Pairs)
  | text (value : Option String)
  | flag (value : Option Bool)
  | name (s : String)

/-- What a step leaves: its answer or fault, the session, and what came out. -/
structure Result where
  reply : Except Fault Reply
  session : Session
  output : Output

namespace Session

/-- The logger that reports on simple names. -/
def nameLogger : String :=
  "objtools.to_string_helper_helpers.simple_name"

/-- The record about the simple name of a type, if there is something to report. -/
def nameRecord? (name : String) : Option Record :=
  (TypeName.collapseNote? name).map fun note => ⟨nameLogger, 10, note, 0, 0⟩

/-- Replaces the console by one of the wished level and style, unless one is attached and the wish
does not force it. -/
def setup (s : Session) (r : SetupRequest) : Result :=
  if s.logging.isAttached && !r.force then ⟨.ok .done, s, .none⟩
  else
    match r.resolve s.settings with
    | (.error f, settings) => ⟨.error f, { s with settings }, .none⟩
    | (.ok (level, style), settings) =>
      match s.logging.retire with
      | (.error f, logging, out) => ⟨.error f, ⟨settings, logging⟩, out⟩
      | (.ok (), logging, out) => ⟨.ok .done, ⟨settings, logging.install level style⟩, out⟩

/-- What a step on the settings leaves. -/
def ofSettings {α : Type} (s : Session) (reply : α → Reply) (r : Except Fault α × Settings) :
    Result :=
  ⟨r.1.map reply, { s with settings := r.2 }, .none⟩

/-- What a step leaves that only changes the settings. -/
def withSettings (s : Session) (settings : Settings) : Result :=
  ⟨.ok .done, { s with settings }, .none⟩

/-- What a step leaves that only changes the handlers. -/
def withLogging (s : Session) (logging : Logging) : Result :=
  ⟨.ok .done, { s with logging }, .none⟩

/-- One step. -/
def step (s : Session) : Step → Result
  | .setVariable name value => s.withSettings (s.settings.setVariable name value)
  | .unsetVariable name => s.withSettings (s.settings.unsetVariable name)
  | .setSource place source => s.withSettings (s.settings.setSource place source)
  | .forget => s.withSettings s.settings.forget
  | .loadFile place => ⟨(s.settings.loadFile place).map .pairs, s, .none⟩
  | .loadDefaults => s.ofSettings .pairs s.settings.loadDefaults
  | .text q alternative required => s.ofSettings .text (s.settings.text q alternative required)
  | .flag name alternative required =>
    s.ofSettings .flag (s.settings.flag name alternative required)
  | .setup r => s.setup r
  | .log r => ⟨.ok .done, s, s.logging.emit r⟩
  | .simpleName name =>
    ⟨.ok (.name (TypeName.simpleOf name)), s, ((nameRecord? name).map s.logging.emit).getD .none⟩
  | .addHost => s.withLogging s.logging.addHost
  | .removeHost number => s.withLogging (s.logging.removeHost number)
  | .restoreHost number => s.withLogging (s.logging.restoreHost number)
  | .detach => s.withLogging s.logging.detach
  | .setLevel level => s.withLogging (s.logging.setLevel level)
  | .breakClose r => s.withLogging (s.logging.breakClose r)

/-- The session after steps in order. -/
def run (s : Session) (steps : List Step) : Session :=
  steps.foldl (fun s e => (s.step e).session) s

end Session

end Depict

import Depict.Fault
import Depict.Settings.Dotenv
import Depict.Text.Utf8

/-!
# Where settings come from

Settings are looked up in the environment and, behind it, in defaults that are
read from two files: the one in the working directory comes before the one in the
home directory, and the first file that declares a key decides it. The defaults
are read once and kept until they are forgotten; reading that fails keeps nothing.
-/
namespace Depict

/-- What is found under the path of a file. -/
inductive Source
  | absent
  | directory
  | content (bytes : List UInt8)

/-- The declarations of a file; `path` is how its path shows. -/
def Source.load (path : String) : Source → Except Fault Pairs
  | absent => .ok []
  | directory => .error (.misconfigured (.unreadable "configuration" (some path)))
  | content bytes =>
    match Text.Utf8.decode bytes with
    | .ok text => .ok (Dotenv.parse text)
    | .error m => .error (.undecodable m)

/-- The directories that are searched for a file of defaults. -/
inductive Place
  | working
  | home
  deriving DecidableEq

/-- The environment, the two files, the defaults if they have been read, and how the home directory
shows. -/
structure Settings where
  environment : Pairs
  working : Source
  home : Source
  defaults : Option Pairs
  homeDirectory : String

namespace Settings

def source (s : Settings) : Place → Source
  | .working => s.working
  | .home => s.home

def setSource (s : Settings) : Place → Source → Settings
  | .working, f => { s with working := f }
  | .home, f => { s with home := f }

/-- How the path of the file at a place shows. -/
def path (s : Settings) : Place → String
  | .working => ".env"
  | .home => s.homeDirectory ++ "/.env"

/-- The declarations of the file at a place. -/
def loadFile (s : Settings) (p : Place) : Except Fault Pairs :=
  (s.source p).load (s.path p)

def setVariable (s : Settings) (name value : String) : Settings :=
  { s with environment := s.environment.put name value }

def unsetVariable (s : Settings) (name : String) : Settings :=
  { s with environment := s.environment.remove name }

/-- The settings that have to read their defaults again. -/
def forget (s : Settings) : Settings :=
  { s with defaults := none }

/-- The declarations of both files as they are now. -/
def readFiles (s : Settings) : Except Fault Pairs := do
  let working ← s.loadFile .working
  let home ← s.loadFile .home
  return working.union home

/-- The defaults, read now unless they have been read before. -/
def loadDefaults (s : Settings) : Except Fault Pairs × Settings :=
  match s.defaults with
  | some ps => (.ok ps, s)
  | none =>
    match s.readFiles with
    | .ok ps => (.ok ps, { s with defaults := some ps })
    | .error f => (.error f, s)

end Settings

end Depict

import ScriptHost.Config
import ScriptHost.Files

/-!
# Finding and loading the configuration

The document is the one named on the command line, else the one that the environment
names, else the user's own. Only the last need not exist.
-/

namespace ScriptHost.Config

inductive LoadError where
  | read (path : String) (fault : Files.Fault)
  | parse (path : String) (line : Nat)

def LoadError.message : LoadError → String
  | .read path fault => "failed to read config " ++ path ++ ": " ++ fault.message
  | .parse path line =>
    "failed to parse config " ++ path ++ ": TOML parse error at line " ++ toString line

/-- The settings of the document at a path. -/
def load (files : Files) (path : String) : Except LoadError Config :=
  match files.readText path with
  | .error fault => .error (.read path fault)
  | .ok text => (parse text).mapError (.parse path)

/-- Where a configuration can be named: on the command line, in the environment, and the
place of the user's own. -/
structure Sources where
  explicit : Option String := none
  environment : Option String := none
  user : Option String := none

/-- The path of the document, if there is one. -/
def Sources.path? (s : Sources) (files : Files) : Option String :=
  match s.explicit, s.environment.filter (· ≠ "") with
  | some path, _ => some path
  | none, some path => some path
  | none, none => s.user.filter files.isFile

/-- The settings of the document, or the defaults without one. -/
def Sources.load (s : Sources) (files : Files) : Except LoadError Config :=
  match s.path? files with
  | some path => Config.load files path
  | none => .ok {}

end ScriptHost.Config

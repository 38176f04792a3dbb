import ScriptHost.Lua.Native

/-!
# The system library

Scripts see no clock and no surroundings: the time stands still at zero, nothing is set, and
there are no files. The end of a script is raised, so that the host can tell it from a
failure.
-/

namespace ScriptHost.Lua.System

/-- The status that a script ends with: nothing and true stand for success, anything but a
number for failure. -/
def exitStatus : Option Value → Int
  | none | some .nil | some (.bool true) => 0
  | some (.number (.int n)) => n.toInt
  | some (.number (.float x)) => x.toInt64.toInt
  | some _ => 1

/-- Ends the script. -/
def exit (s : Store) (args : Args) : Native :=
  let (s, e) := s.newFailure (.exit (exitStatus args.head?))
  .fail s (.value e)

def notFound (name : Bytes) : List Value :=
  [.nil, .string (name ++ ": No such file or directory"), .int 2]

def run (f : SystemFunction) (s : Store) (args : Args) : Native :=
  match f with
  | .clock => .done s [.float 0.0]
  | .date => .done s [.string "Thu Jan  1 00:00:00 1970"]
  | .difftime =>
    .reading s (Args.float s args 1) fun a =>
      .reading s (Args.float s args 2) fun b => .done s [.float (a - b)]
  | .execute => .done s [.bool false]
  | .exit => exit s args
  | .getenv => .reading s (Args.text s args 1) fun _ => .done s [.nil]
  | .remove => .reading s (Args.text s args 1) fun name => .done s (notFound name)
  | .rename => .reading s (Args.text s args 1) fun name => .done s (notFound name)
  | .setlocale => .done s [.string "C"]
  | .time => .done s [.int 0]
  | .tmpname => .fail s (.here "unable to generate a unique filename")

/-- The functions on files. -/
def runFile (f : FileFunction) (s : Store) (args : Args) : Native :=
  match f with
  | .open_ => .reading s (Args.text s args 1) fun name => .done s (notFound name)
  | .type => .reading s (Args.any args 1) fun _ => .done s [.nil]
  | _ => .fail s (.here "files are not available")

end ScriptHost.Lua.System

import ScriptHost.CommandLine.Places
import ScriptHost.CommandLine.Program
import Std.Time.Format

/-!
# The command

Gathers the files and settings around the program, runs it on the words of its command line,
and writes what it leaves behind. Scripts may import other scripts from anywhere below the
working directory, so these are gathered too; hidden directories are passed over.
-/

namespace ScriptHost.Command

open CommandLine

/-- The names of the plain files and of the directories in a directory. -/
def entries (path : String) : IO (List String × List String) := do
  try
    let found ← (← IO.FS.realPath path).readDir
    let kinds ← found.toList.mapM fun entry => do
      return (entry.fileName, (← entry.path.symlinkMetadata).type)
    return ((kinds.filter (·.2 == .file)).map (·.1), (kinds.filter (·.2 == .dir)).map (·.1))
  catch _ => return ([], [])

/-- Adds the file at a path, if it can be read. -/
def gather (files : Files) (path : String) : IO Files := do
  try return files.write path (← IO.FS.readBinFile path)
  catch _ => return files

/-- Adds the directory at a path, if it is one. -/
def gatherDirectory (files : Files) (path : String) : IO Files := do
  try
    if ← (← IO.FS.realPath path).isDir then
      match files.makeDirectories (Files.origin path) (path.splitOn "/") with
      | .ok (made, _) => return made
      | .error _ => return files
    else return files
  catch _ => return files

/-- Adds what is at a path and what is in the place of the directory around it. -/
def gatherPlace (files : Files) (path : String) : IO Files :=
  [Path.directory path, path].foldlM (fun files place => do
    gather (← gatherDirectory files place) place) files

/-- Adds the scripts that others may import, at and below a path. -/
partial def gatherImports (files : Files) (path : String) : IO Files := do
  let (plain, directories) ← entries path
  let scripts := plain.filter fun name => name.endsWith ".rhai"
  let files ← scripts.foldlM (fun files name => gather files (path ++ "/" ++ name)) files
  let seen := directories.filter fun name => !name.startsWith "."
  seen.foldlM (fun files name => gatherImports files (path ++ "/" ++ name)) files

/-- What the program finds around it, as far as the words ask for it. -/
def surroundings (words : List String) : IO Surroundings := do
  let config ← IO.getEnv "SCRIPTRUN_CONFIG"
  let userConfig := userConfig? (← IO.getEnv "XDG_CONFIG_HOME") (← IO.getEnv "HOME")
  let around : Surroundings :=
    { files := .empty, config, userConfig, filter := ← IO.getEnv "RUST_LOG" }
  match Arguments.parse words with
  | .error _ => return around
  | .ok args =>
    let named := config.toList ++ userConfig.toList ++ args.paths
    let imports ← match args.command with
      | .run _ => gatherImports around.files "."
      | .engines => pure around.files
    let around := { around with files := ← named.foldlM gatherPlace imports }
    match settings around args.options with
    | .error _ => return around
    | .ok c => return { around with files := ← c.paths.foldlM gatherPlace around.files }

/-- The time of day in UTC, to the microsecond. -/
def now : IO String := do
  let instant ← Std.Time.Timestamp.now
  return (Std.Time.DateTime.ofTimestamp instant .UTC).format "uuuu-MM-dd'T'HH:mm:ss.SSSSSS'Z'"

/-- Adds to the end of the log file. A file that is new is for its owner alone. -/
def appendLog (files : Files) (path text : String) : IO Unit := do
  let directory := Path.directory path
  if directory ≠ "" then IO.FS.createDirAll directory
  IO.FS.withFile path .append fun handle => handle.putStr text
  if !files.isFile path then
    IO.setAccessRights path { user := { read := true, write := true } }

/-- Runs the program on the words, writes its output and its log, and answers its exit code. -/
def execute (words : List String) : IO UInt32 := do
  let around ← surroundings words
  let ending := CommandLine.run around words
  let time ← now
  match ending.logFile with
  | some path => appendLog around.files path (ending.transcript.logText ending.format time)
  | none => pure ()
  (← IO.getStdout).putStr ending.transcript.out
  (← IO.getStderr).putStr (ending.transcript.errText ending.format time)
  return ending.code.toUInt32

end ScriptHost.Command

def main (words : List String) : IO UInt32 := ScriptHost.Command.execute words

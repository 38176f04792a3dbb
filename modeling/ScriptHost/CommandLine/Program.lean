import ScriptHost.CommandLine.Arguments
import ScriptHost.CommandLine.Transcript
import ScriptHost.Config.Load
import ScriptHost.Session

/-!
# The program

It reads its arguments and settings, opens the log, and lists the engines or runs one script;
the outcome of the script is its exit code. What goes wrong before that has codes of its own.
-/

namespace ScriptHost.CommandLine

/-- What the program finds around it: the files, the configuration that the environment names
and the user's own, and the filter for the log. -/
structure Surroundings where
  files : Files
  config : Option String := none
  userConfig : Option String := none
  filter : Option String := none

/-- How the program ends, and what a run has reported. The log is written in `format`, and to
the end of a file too if there is one. -/
structure Ending where
  code : Nat
  transcript : Transcript
  format : Log.Format := .pretty
  logFile : Option String := none
  report : Report := {}

/-- Why the program cannot begin its work. -/
inductive SetupError where
  | config (e : Config.LoadError)
  | level (e : Log.NameError)
  | logFile (fault : Files.Fault)
  | unknownEngine (script : String)
  | data (text : String) (fault : Json.Fault)

/-- The text of a setup error, with its cause. -/
def SetupError.message : SetupError → String
  | .config e@(.read _ fault) => e.message ++ ": " ++ fault.message
  | .config e => e.message
  | .level e => "failed to initialize logging: " ++ e.message
  | .logFile fault =>
    "failed to initialize logging: failed to create log file: " ++ fault.message ++ ": " ++
      fault.message
  | .unknownEngine script => "cannot infer an engine for " ++ script ++ "; pass --engine"
  | .data text fault => "--data is not valid JSON: " ++ fault.message text

/-- The exit code for setup errors, clear of those for outcomes. -/
def setupCode : Nat := 64

/-- The exit code for words that ask for nothing. -/
def usageCode : Nat := 2

/-- The settings, with those on the command line before those of the document. -/
def settings (around : Surroundings) (o : Options) : Except SetupError Config := do
  let sources : Config.Sources := ⟨o.config, around.config, around.userConfig⟩
  let config ← (sources.load around.files).mapError .config
  let logging := { config.logging with
    format := o.logFormat.getD config.logging.format
    level := o.logLevel.getD config.logging.level }
  return { config with logging }

/-- The filter for the log: that of the environment if it is one, or the level of the settings. -/
def filter (around : Surroundings) (l : Config.Logging) : Except SetupError Log.Filter := do
  let level ← (Log.Level.parse l.level).mapError .level
  return (around.filter.bind Log.Filter.parse?).getD (.ofLevel level)

/-- The files with that for the log. -/
def withLogFile (files : Files) : Option String → Except SetupError Files
  | none => .ok files
  | some path => (files.touch path).mapError .logFile

def loggingEvent (l : Config.Logging) : Log.Event where
  level := .debug
  target := "scriptrun_core::logging"
  message := "logging initialized"
  fields := [("log_level", .plain l.level), ("log_format", .plain l.format.name),
    ("log_file", .plain (describeOption l.file))]

/-- A name with blanks behind it up to a width. -/
def padded (width : Nat) (name : String) : String :=
  name ++ String.ofList (List.replicate (width - name.length) ' ')

/-- The list of the engines with their handlers. -/
def engineList (d : Dispatcher Session) : Transcript :=
  d.engineNames.foldl (fun t (e, handler) =>
    t ++ .line (padded 10 e.name ++ " ." ++ padded 5 e.extension ++ " " ++ handler)) {}

/-- What is to be run. -/
def invocation (o : Options) (script : String) : Except SetupError Invocation := do
  let engine ← match o.engine with
    | some e => pure e
    | none =>
      match Engine.ofPath? script with
      | some e => pure e
      | none => .error (.unknownEngine script)
  let data ← match o.data with
    | none => pure .null
    | some text => (Json.read text).mapError (.data text)
  return {
    engine, path := script, interface := o.interface, address := o.address
    handles := { document := o.document, commandData := data }
    debug := o.debug, keepGlobals := o.keepGlobals, refresh := o.refresh }

/-- The run of an invocation as the log shows it. -/
def span (v : Invocation) : Log.Span :=
  ⟨v.engine.name, v.interface.name, v.path, v.handles.document⟩

/-- What the log is told of a run that is over. -/
def closingEvents (o : Outcome) (r : Report) : List Log.Event :=
  { level := .info, target := "sr", message := "script finished"
    fields := [("result", .plain o.label), ("code", .number o.code)] } ::
  if o.isFailure ∧ ¬r.diagnostics.isEmpty then
    [{ level := .debug, target := "sr", message := "failure report"
       fields := [("diagnostics", .plain r.diagnostics.render)] }]
  else []

/-- Runs a script. -/
def runScript (d : Dispatcher Session) (f : Log.Filter) (files : Files) (v : Invocation) :
    Outcome × Report × Transcript :=
  let (_, job, outcome, effects) := d.dispatch {} files { invocation := v }
  let closing := (closingEvents outcome job.report).foldl (fun t e => t ++ .event f none e)
    ({} : Transcript)
  let message : Transcript :=
    if job.report.message = "" then {} else .line job.report.message
  (outcome, job.report, .ofEffects f (span v) effects ++ closing ++ message)

/-- Does what the arguments ask for. -/
def perform (around : Surroundings) (args : Arguments) : Ending :=
  let stopped (e : SetupError) : Transcript := .error ("sr: " ++ e.message)
  let prepared : Except SetupError (Config × Log.Filter × Files) := do
    let config ← settings around args.options
    let f ← filter around config.logging
    return (config, f, ← withLogFile around.files config.logging.file)
  match prepared with
  | .error e => { code := setupCode, transcript := stopped e }
  | .ok (config, f, files) =>
    let d := Session.dispatcher config
    let ending (code : Nat) (t : Transcript) : Ending :=
      { code
        transcript := .event f none (loggingEvent config.logging) ++ t
        format := config.logging.format
        logFile := config.logging.file }
    match args.command with
    | .engines => ending 0 (engineList d)
    | .run script =>
      match invocation args.options script with
      | .error e => ending setupCode (stopped e)
      | .ok v =>
        let (outcome, report, t) := runScript d f files v
        { ending outcome.code.toNat t with report }

def versionLine : String := "sr 0.1.0"

def usageText : String :=
  "Multi-runtime script runner\n\nUsage: sr [OPTIONS] <COMMAND>\n\nCommands:\n" ++
    "  run      Run a script; exits with its result code\n" ++
    "  engines  List engine kinds and their handlers\n"

/-- What words that ask for nothing to be done are answered with. -/
def Refusal.ending : Refusal → Ending
  | .mistake m =>
    { code := usageCode
      transcript := .error ("error: " ++ m.message ++ "\n\nFor more information, try '--help'.") }
  | .version => { code := 0, transcript := .line versionLine }
  | .help true => { code := 0, transcript := { out := usageText } }
  | .help false => { code := usageCode, transcript := .error usageText }

/-- Runs the program on the words of its command line. -/
def run (around : Surroundings) (words : List String) : Ending :=
  match Arguments.parse words with
  | .error r => r.ending
  | .ok args => perform around args

end ScriptHost.CommandLine

import ScriptHost.Diagnostics
import ScriptHost.Engine
import ScriptHost.Json.Printer
import ScriptHost.Json.Reader
import ScriptHost.Outcome
import ScriptHost.Text.Quoted

/-!
# Invocations

What a host asks for when it runs a script, the handles that it passes along unchanged,
and what it finds afterwards.
-/

namespace ScriptHost

/-- What the host passes through to a script. -/
structure Handles where
  document : String := ""
  commandData : Json := .null
  eventSender : Json := .null
  eventArgs : Json := .null
  selection : List UInt64 := []
  deriving Inhabited

namespace Handles

/-- The handle that compiled scripts ask for by number. -/
def handle? (h : Handles) (id : Nat) : Option Json :=
  match id with
  | 0 => some h.commandData
  | 1 => some h.eventSender
  | 2 => some h.eventArgs
  | _ => none

/-- All handles as the one value that interpreters show to scripts. -/
def toJson (h : Handles) : Json :=
  .obj [("command_data", h.commandData), ("document", .str h.document),
    ("event_args", h.eventArgs), ("event_sender", h.eventSender),
    ("selection", .arr (h.selection.map fun n => .int n.toNat))]

/-- An element number: an integer that fits in 64 bits without sign. -/
def element? : Json → Option UInt64
  | .int n => if 0 ≤ n ∧ n < UInt64.size then some n.toNat.toUInt64 else none
  | _ => none

/-- The handles from their five values. -/
def ofValues? (document commandData eventSender eventArgs selection : Json) : Option Handles :=
  match document, selection with
  | .str document, .arr items => do
    let selection ← items.mapM element?
    return { document, commandData, eventSender, eventArgs, selection }
  | _, _ => none

/-- The one field of a name, if it is there exactly once. -/
def single? (fields : List (String × Json)) (name : String) : Option Json :=
  match fields.filter fun field => field.1 = name with
  | [(_, value)] => some value.canonical
  | _ => none

/-- Reads handles from an object that has each of the five fields once, whatever else it
has, or from a list of exactly the five values. -/
def parse? (text : String) : Option Handles :=
  match Json.readRaw text with
  | .ok (.obj fields) => do
    ofValues? (← single? fields "document") (← single? fields "command_data")
      (← single? fields "event_sender") (← single? fields "event_args")
      (← single? fields "selection")
  | .ok (.arr [document, commandData, eventSender, eventArgs, selection]) =>
    ofValues? document.canonical commandData.canonical eventSender.canonical
      eventArgs.canonical selection.canonical
  | _ => none

end Handles

/-- What a script learns of the command that it belongs to. -/
structure CommandInfo where
  name : String := ""
  bundle : String := ""
  extension : String := ""
  uniqueId : String := ""
  alternatePath : Option String := none
  deriving DecidableEq, Inhabited

/-- The names that scripts find this under, with their values. -/
def CommandInfo.bindings (c : CommandInfo) (path : String) : List (String × String) :=
  [("__commandpath__", Path.directory path),
    ("__alternatecommandpath__", (c.alternatePath.map Path.directory).getD ""),
    ("__commandname__", c.name),
    ("__commandbundle__", c.bundle),
    ("__commandextension__", c.extension),
    ("__commanduniqueid__", c.uniqueId)]

/-- A request to run one script. `address` names a module and type for the binary engine;
`keepGlobals` leaves the globals of the interpreter to the next run, `refresh` makes a new
interpreter first. -/
structure Invocation where
  engine : Engine
  path : String
  interface : Interface := .command
  address : String := ""
  handles : Handles := {}
  command : CommandInfo := {}
  debug : Bool := false
  keepGlobals : Bool := false
  refresh : Bool := false
  deriving Inhabited

namespace Invocation

/-- An invocation of the engine that the path's extension names. -/
def forScript (path : String) : Except NameError Invocation :=
  match Engine.ofPath? path with
  | some engine => .ok { engine, path }
  | none => .error (.unknownEngine path)

/-- The path's last part without extension. -/
def scriptName (i : Invocation) : String := (Path.stem? i.path).getD ""

end Invocation

/-- What a host finds after a run. -/
structure Report where
  diagnostics : Diagnostics := {}
  results : List (String × Json) := []
  message : String := ""
  status : Option Status := none
  deriving Inhabited

/-- A missing or present text. -/
def describeOption : Option String → String
  | none => "None"
  | some text => "Some(" ++ Text.Quoted.quote text ++ ")"

def Diagnostics.describe (d : Diagnostics) : String :=
  "ErrorReport \x7b interpreter: " ++ describeOption d.interpreter ++ ", runtime: " ++
    describeOption d.runtime ++ ", embedded: " ++ describeOption d.embedded ++ " \x7d"

/-- One line that shows the main settings of an invocation and its diagnostics. -/
def Invocation.describe (i : Invocation) (d : Diagnostics) : String :=
  "ScriptRuntime \x7b engine: " ++ i.engine.title ++ ", interface: " ++ i.interface.title ++
    ", source_path: " ++ Text.Quoted.quote i.path ++
    ", config_source_path: " ++ Text.Quoted.quote i.address ++
    ", debug_mode: " ++ toString i.debug ++
    ", needs_clean_engine: " ++ toString i.keepGlobals ++
    ", diagnostics: " ++ d.describe ++ ", .. \x7d"

/-- The journal that a workflow run hands to its automation module. -/
def Invocation.journal (i : Invocation) : Json :=
  .obj [("automation", .bool true), ("force_manual_run", .bool false),
    ("path_execute", .bool true), ("show_ui", .bool i.debug),
    ("shutdown_existing_session", .bool true), ("target_document", .str i.path)]

end ScriptHost

import ScriptHost.Effect
import ScriptHost.Wasm.Invoke

/-!
# Entry points of compiled modules

How a module is run once it is there, whichever way it came: as a command, or as the handler of
an event. A failure is shown to the user, written to the sink and kept in the report.
-/

namespace ScriptHost

open Wasm (Compiled InvokeError)

/-- A failure of the host: its text in the diagnostics, on the error channel, and in a notice. -/
def failed (outcome : Outcome) (title : String) (sink : Nat) (message : String) : Execution :=
  let text := Text.Newline.normalize message
  { outcome
    report := { diagnostics := { runtime := some text } }
    effects :=
      [.error sink (Diagnostics.under Diagnostics.runtimeBanner text ++ "\n"),
        .notify ⟨title, text⟩] }

/-- The failure of a module that was to run. -/
def invocationFailed (sink : Nat) (message : String) : Execution :=
  failed .executionFailed "Script execution failed" sink message

/-- An execution with effects before its own. -/
def Execution.after (effects : Effects) (e : Execution) : Execution :=
  { e with effects := effects ++ e.effects }

/-- What a module wrote to the sink. -/
def writes (sink : Nat) (h : Wasm.Host) : Effects := h.output.map (.write sink)

/-- A notice that nothing can be run. -/
def noEntry (title message : String) : Execution :=
  { outcome := .interfaceMissing, effects := [.notify ⟨title, message⟩] }

/-- Runs the first command of a module, or the one of the name that is required. -/
def runCommand (c : Compiled) (required : Option String) (handles : Handles)
    (references : List Compiled) (sink : Nat) : Execution :=
  match c.shape.findCommand? required with
  | none =>
    let wanted := match required with
      | none => "any command type"
      | some name => "command type \x60" ++ name ++ "\x60"
    noEntry "Command not found"
      ("Module \x60" ++ c.name ++ "\x60 does not implement " ++ wanted ++ ".")
  | some command =>
    match c.invokeCommand command (.ofHandles handles) references with
    | (h, .error e) => (invocationFailed sink e.message).after (writes sink h)
    | (h, .ok result) =>
      { outcome := .succeeded
        report := { message := result.message, status := some result.status }
        effects := writes sink h ++ [.log
          { level := .debug, target := "scriptrun_core::wasm_runtime", message := "command returned"
            fields := [("module", .plain c.name), ("command", .plain command.name),
              ("code", .number result.code)] }] }

/-- Runs the first handler of events that a module has. -/
def runEventHandler (c : Compiled) (handles : Handles) (references : List Compiled)
    (sink : Nat) : Execution :=
  let event (message : String) (fields : List (String × Log.FieldValue)) : Effect :=
    .log { level := .debug, target := "scriptrun_core::compiled_engine", message
           fields := ("module", .plain c.name) :: fields }
  match c.shape.findEventHandler? with
  | none => { outcome := .interfaceMissing, effects := [event "no event handler method" []] }
  | some (type, method) =>
    let found := event "invoking event handler"
      [("handler", .plain type.name), ("method", .plain method.name)]
    match c.invokeEventHandler method (.ofHandles handles) references with
    | (h, .ok ()) => { outcome := .succeeded, effects := found :: writes sink h }
    | (h, .error e) => (invocationFailed sink e.message).after (found :: writes sink h)

/-- Runs what the host asks a module for. -/
def runInterface (c : Compiled) (interface : Interface) (handles : Handles)
    (references : List Compiled) (sink : Nat) : Execution :=
  match interface with
  | .command => runCommand c none handles references sink
  | .eventHandler => runEventHandler c handles references sink
  | .availability => { outcome := .interfaceMissing }

end ScriptHost

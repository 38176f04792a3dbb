import ScriptHost.Handler
import ScriptHost.Rhai.Machine

/-!
# The embedded interpreter

There is one interpreter, made when it is first needed. A run has a scope of its own; what the
interpreter keeps from run to run are the modules that were imported. It writes to the sink of
the run that is going on and to none in between.
-/

namespace ScriptHost.Rhai

structure Embedded where
  initializations : Nat := 0
  loaded : List (String × Module) := []
  sink : Option Nat := none

namespace Embedded

def isInitialized (e : Embedded) : Bool := 0 < e.initializations

/-- Makes the interpreter ready for use, and what the log is told of it. -/
def lock (e : Embedded) : Embedded × List Log.Event :=
  if e.isInitialized then (e, [])
  else ({ e with initializations := 1 },
    [{ level := .debug, target := "scriptrun_core::embedded_engine"
       message := "embedded interpreter initialized", fields := [("count", .number 1)] }])

def attach (e : Embedded) (sink : Nat) : Embedded := { e with sink := some sink }

def detach (e : Embedded) : Embedded := { e with sink := none }

/-- What is in sight of a script when it begins. -/
def scope (v : Invocation) : List Variable :=
  let own : List Variable :=
    [⟨"__host__", .ofJson v.handles.toJson, true⟩, ⟨"__file__", .text v.path, false⟩,
      ⟨"__name__", .text "__main__", false⟩, ⟨"__debug__", .bool v.debug, false⟩,
      ⟨"__result__", .map [], false⟩]
  let ofCommand := (v.command.bindings v.path).map fun (name, s) => ⟨name, .text s, false⟩
  (own ++ ofCommand).reverse

/-- The fields of the result that the host can have, and what the log is told of the others. -/
def results (fields : List (String × Value)) : List (String × Json) × List Log.Event :=
  fields.foldr (fun (name, v) (kept, events) =>
    match v.toJson? with
    | .ok j => ((name, j) :: kept, events)
    | .error type => (kept,
      { level := .debug, target := "scriptrun_core::embedded_engine"
        message := "skipping unserializable result"
        fields := [("key", .plain name), ("error", .plain ("Output type incorrect: " ++ type ++
          " (expecting serde_json::value::Value)"))] } :: events)) ([], [])

/-- What the host gets of a script that has ended: the latest variable for the result, if it
still is a map. -/
def published (s : State) : List (String × Json) × List Log.Event :=
  match s.lookup? "__result__" with
  | some ⟨_, .map fields, _⟩ => results fields
  | _ => ([], [])

/-- The failure of a run. -/
def failed (sink : Nat) (message : String) : Execution :=
  let text := Text.Newline.normalize message
  { outcome := .executionFailed
    report := { diagnostics := { embedded := some text } }
    effects := [.error sink (Diagnostics.under Diagnostics.embeddedBanner text ++ "\n")] }

/-- What a script wrote to the sink. -/
def writes (sink : Nat) (s : State) : Effects :=
  s.written.reverse.map fun text => .write sink ⟨.out, text⟩

/-- Runs the text of a script. -/
def runText (e : Embedded) (files : Files) (v : Invocation) (sink : Nat) (source : String) :
    Embedded × Execution :=
  match Script.ofText source with
  | .error f => (e, failed sink f.message)
  | .ok script =>
    let state : State := { files, visible := scope v, loaded := e.loaded }
    let succeeded (s : State) : Embedded × Execution :=
      let (results, events) := published s
      ({ e with loaded := s.loaded },
        { outcome := .succeeded, report := { results }
          effects := writes sink s ++ events.map .log })
    match script.run state with
    | .error (.failed f) s =>
      let execution := failed sink f.message
      ({ e with loaded := s.loaded },
        { execution with effects := writes sink s ++ execution.effects })
    | .ok _ s | .error _ s => succeeded s

/-- Runs a script. -/
def run (e : Embedded) (files : Files) (v : Invocation) (sink : Nat) : Embedded × Execution :=
  let (e, events) := e.lock
  let (e, execution) := match files.readText v.path with
    | .error fault => (e, failed sink ("cannot read " ++ v.path ++ ": " ++ fault.message))
    | .ok source => (e.attach sink).runText files v sink source
  (e.detach, { execution with effects := events.map .log ++ execution.effects })

end Embedded

end ScriptHost.Rhai

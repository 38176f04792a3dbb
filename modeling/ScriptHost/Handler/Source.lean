import ScriptHost.Compile
import ScriptHost.Handler.Entry

/-!
# Scripts that are compiled

A source is compiled for each run. It may import from the modules that the settings name, which
are loaded for it, or without any from all that are registered.
-/

namespace ScriptHost

open Wasm (Compiled)

/-- What the log is told of a module that was asked for. -/
def Registry.events (before : Registry) :
    Except ModuleError (Registry × Compiled) → List Log.Event
  | .error _ => []
  | .ok (_, c) =>
    let event (level : Log.Level) (message : String) (fields : List (String × Log.FieldValue)) :
        Log.Event :=
      { level, target := "scriptrun_core::module_registry", message
        fields := ("module", .plain c.name) :: fields }
    if (before.byDigest.lookup c.digest).isSome then [event .trace "module registry hit" []]
    else
      (if (before.find? c.name).isSome then [event .debug "replaced registered module" []]
        else []) ++
        [event .debug "registered module" [("digest", .plain c.digest.hex)]]

/-- Loads modules one after the other, up to the first that cannot be loaded. -/
def Registry.loadAll (r : Registry) (files : Files) :
    List String → Registry × List Log.Event × Except CompileError (List Compiled)
  | [] => (r, [], .ok [])
  | path :: rest =>
    let loaded := r.loadFile files path
    match loaded with
    | .error e => (r, r.events loaded, .error (.reference path e))
    | .ok (after, c) =>
      let (final, events, others) := after.loadAll files rest
      (final, r.events loaded ++ events, others.map (c :: ·))

/-- The modules that a source may import from. -/
def Registry.references (r : Registry) (files : Files) (paths : List String) :
    Registry × List Log.Event × Except CompileError (List Compiled) :=
  if paths = [] then (r, [], .ok r.modules) else r.loadAll files paths

/-- Compiles the script of an invocation; the module and what it may import from. -/
def Registry.compileScript (r : Registry) (files : Files) (paths defines : List String)
    (v : Invocation) :
    Registry × List Log.Event × Except CompileError (Compiled × List Compiled) :=
  match files.readText v.path with
  | .error fault => (r, [], .error (.unreadable v.path fault))
  | .ok source =>
    let (r, events, references) := r.references files paths
    (r, events, do
      let references ← references
      return (← compileSource defines v.engine v.path source references, references))

/-- Runs a script that is compiled first. -/
def Registry.runSource (r : Registry) (files : Files) (paths defines : List String)
    (v : Invocation) (sink : Nat) : Registry × Execution :=
  let (r, events, compiled) := r.compileScript files paths defines v
  let execution := match compiled with
    | .error e => failed .compileFailed "Compile error" sink e.message
    | .ok (c, references) => runInterface c v.interface v.handles references sink
  (r, execution.after (events.map .log))

end ScriptHost

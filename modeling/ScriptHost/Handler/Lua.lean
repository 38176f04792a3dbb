import ScriptHost.Handler
import ScriptHost.Lua.Pool

/-!
# Lua scripts

A script runs on an interpreter of its document from the pool. Afterwards the interpreter goes
back, without the globals of the script unless they are to be kept, and without a way to write
to the sink of the run.
-/

namespace ScriptHost.Lua

/-- The failure of a run whose script cannot be read. -/
def unreadable (v : Invocation) (sink : Nat) (fault : Files.Fault) : Execution :=
  let text := "cannot read " ++ v.path ++ ": " ++ fault.message
  { outcome := .compileFailed
    report := { diagnostics := { interpreter := some text } }
    effects := [.error sink (Diagnostics.under Diagnostics.interpreterBanner text ++ "\n")] }

/-- The text without the byte order marks that it begins with. -/
def withoutMarks (source : String) : String :=
  String.ofList (source.toList.dropWhile (· = '\ufeff'))

/-- The interpreter as it goes back to the pool, and what the log is told of it. -/
def Interpreter.afterRun (i : Interpreter) (keepGlobals : Bool) : Interpreter × List Log.Event :=
  if keepGlobals then (i.detach, [])
  else
    let (i, stripped) := i.stripScope
    (i.detach, [{ level := .trace, target := "scriptrun_core::lua_engine"
                  message := "scope stripped"
                  fields := [("stripped", .number stripped), ("id", .number i.id)] }])

/-- Runs the text of a script on an interpreter of the pool. -/
def Pool.runText (p : Pool) (v : Invocation) (sink : Nat) (source : String) : Pool × Execution :=
  let document := v.handles.document
  let (rest, i) := p.acquire document v.refresh
  let before := p.acquireEvents document v.refresh i
  let (i, execution) := i.run v sink (withoutMarks source)
  let (i, after) := i.afterRun v.keepGlobals
  (rest.release i,
    { execution with effects := before.map .log ++ execution.effects ++ after.map .log })

/-- Runs a script. One that cannot be read leaves the pool alone. -/
def Pool.run (p : Pool) (files : Files) (v : Invocation) (sink : Nat) : Pool × Execution :=
  match files.readText v.path with
  | .error fault => (p, unreadable v sink fault)
  | .ok source => p.runText v sink source

end ScriptHost.Lua

import ScriptHost.Dispatcher
import ScriptHost.Handler.Lua
import ScriptHost.Handler.Workflow
import ScriptHost.Rhai.Embedded

/-!
# Sessions

The handlers that exist, and what they keep from run to run: the pool of Lua interpreters, the
embedded interpreter, and the registry that compiled, binary and workflow scripts share.
-/

namespace ScriptHost

structure Session where
  pool : Lua.Pool := {}
  embedded : Rhai.Embedded := {}
  registry : Registry := {}

namespace Session

/-- A handler that works on the registry alone. -/
def onRegistry (name : String) (run : Registry → Files → Invocation → Nat → Registry × Execution) :
    Handler Session :=
  .steady name fun s files v sink =>
    let (registry, execution) := run s.registry files v sink
    ({ s with registry }, execution)

/-- A handler that works on the pool alone. -/
def onPool (name : String) (run : Lua.Pool → Files → Invocation → Nat → Lua.Pool × Execution) :
    Handler Session :=
  .steady name fun s files v sink =>
    let (pool, execution) := run s.pool files v sink
    ({ s with pool }, execution)

/-- A handler that works on the embedded interpreter alone. -/
def onEmbedded (name : String)
    (run : Rhai.Embedded → Files → Invocation → Nat → Rhai.Embedded × Execution) :
    Handler Session :=
  .steady name fun s files v sink =>
    let (embedded, execution) := run s.embedded files v sink
    ({ s with embedded }, execution)

/-- The handler of an engine under the settings. -/
def handler (config : Config) : Engine → Handler Session
  | .lua => onPool "lua-5.4" Lua.Pool.run
  | .rhai => onEmbedded "rhai" Rhai.Embedded.run
  | .wat | .wast =>
    onRegistry "wasmtime" fun r files v sink =>
      r.runSource files config.references [config.hostDefine] v sink
  | .binary => onRegistry "wasmtime" Registry.runBinary
  | .workflow =>
    onRegistry "wasmtime" fun r _ v sink => (r, r.runWorkflow config.workflow v sink)
  | .ruby | .nodeGraph => .steady "unimplemented" fun s _ v _ => (s, engineMissing v)

/-- The dispatcher under the settings. -/
def dispatcher (config : Config) : Dispatcher Session := ⟨handler config⟩

end Session

end ScriptHost

import ScriptHost.Address
import ScriptHost.Handler.Source

/-!
# Binary modules

A module is loaded from the address of the invocation and stays registered. Whatever the host
asks for, its command is run.
-/

namespace ScriptHost

open Wasm (Compiled)

/-- The registered modules of other names. -/
def Registry.others (r : Registry) (c : Compiled) : List Compiled :=
  r.modules.filter fun d => d.name ≠ c.name

/-- Runs the command at an address. -/
def Registry.runAddress (r : Registry) (files : Files) (a : Address) (v : Invocation)
    (sink : Nat) : Registry × Execution :=
  let loaded := r.loadFile files a.module
  let events := r.events loaded
  match loaded with
  | .error e => (r, (invocationFailed sink e.message).after (events.map .log))
  | .ok (r, c) =>
    let found : Log.Event :=
      { level := .debug, target := "scriptrun_core::binary_engine"
        message := "binary module loaded"
        fields := [("address", .plain a.render), ("digest", .plain c.digest.hex)] }
    (r, (runCommand c a.typeName v.handles (r.others c) sink).after
      ((events ++ [found]).map .log))

/-- Runs the command that an invocation gives the address of. -/
def Registry.runBinary (r : Registry) (files : Files) (v : Invocation) (sink : Nat) :
    Registry × Execution :=
  match Address.parse v.address with
  | .error .empty =>
    (r, noEntry "No binary configured"
      ("\x60" ++ v.scriptName ++ "\x60 has no module address to invoke."))
  | .error e =>
    (r, { outcome := .executionFailed
          report := { diagnostics := { runtime := some e.message } }
          effects := [.notify ⟨"Invalid binary address", e.message⟩] })
  | .ok a => r.runAddress files a v sink

end ScriptHost

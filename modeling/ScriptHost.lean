import ScriptHost.Session
import ScriptHost.CommandLine.Program
import ScriptHost.Main
import ScriptHost.Proofs.Address.Rendering
import ScriptHost.Proofs.Lua.Custody
import ScriptHost.Proofs.Lua.Lifetime
import ScriptHost.Proofs.Lua.Publishing
import ScriptHost.Proofs.ModuleForm.FrontEnds
import ScriptHost.Proofs.ModuleForm.Lines
import ScriptHost.Proofs.Preprocess.Defines
import ScriptHost.Proofs.Registry.Names
import ScriptHost.Proofs.Registry.Slots
import ScriptHost.Proofs.Session.Notices
import ScriptHost.Proofs.Wasm.Calls
import ScriptHost.Proofs.Wasm.Independence
import ScriptHost.Proofs.Shape.Reflection
import ScriptHost.Proofs.Wasm.Handles
import ScriptHost.Proofs.Wasm.Lockstep
import ScriptHost.Proofs.Wasm.TwinInstances
import ScriptHost.Proofs.Wasm.TwinLinkers
import ScriptHost.Proofs.Wasm.LinkingAlone
import ScriptHost.Proofs.Wasm.ReferenceSets
import ScriptHost.Proofs.Lua.Economy
import ScriptHost.Proofs.Shape.DebugNames
import ScriptHost.Proofs.Rhai.Independence
import ScriptHost.Proofs.Handles
import ScriptHost.Proofs.ModuleForm.Locality
import ScriptHost.Proofs.Lua.Located
import ScriptHost.Proofs.Wasm.Requests
import ScriptHost.Proofs.Session.FailedCompiles
import ScriptHost.Proofs.Session.LineEnds

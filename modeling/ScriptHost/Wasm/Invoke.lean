import ScriptHost.Wasm.Linking

/-!
# Invoking compiled modules

Every invocation links the module anew, with the references that it imports from, and
calls what its shape has shown. What the module wrote before a failure stays written.
-/

namespace ScriptHost.Wasm

/-- Why an invocation fails. -/
inductive InvokeError where
  | link (reference : String) (fault : LinkFault)
  | instantiate (module : String) (fault : LinkFault)
  | noEntry (type : String)
  | unexpectedSignature (exportName : String)
  | noExport (module exportName : String)
  | noHandle (type : ValType)
  | failed (exportName : String) (reason : Stop) (inCode : Bool)
  deriving DecidableEq

def InvokeError.message : InvokeError → String
  | .link reference fault =>
    "failed to link reference module \x60" ++ reference ++ "\x60: " ++ fault.message
  | .instantiate module fault =>
    "failed to instantiate module \x60" ++ module ++ "\x60: " ++ fault.message
  | .noEntry type => "type \x60" ++ type ++ "\x60 has no execute method"
  | .unexpectedSignature name => "\x60" ++ name ++ "\x60 has an unexpected signature"
  | .noExport module name => "module \x60" ++ module ++ "\x60 has no export \x60" ++ name ++ "\x60"
  | .noHandle type =>
    "event parameter of type " ++ type.shown ++ " cannot carry a host handle"
  | .failed name reason inCode =>
    "\x60" ++ name ++ "\x60 failed: " ++ reason.describe inCode

/-- What a command reports. -/
structure CommandResult where
  code : Int
  message : String
  deriving DecidableEq

def CommandResult.status (r : CommandResult) : Status := .ofCode r.code

namespace Compiled

/-- Links the references that a module imports from, in their order. -/
def linkReferences (c : Compiled) (l : Linker) :
    List Compiled → Except (Store × InvokeError) Linker
  | [] => .ok l
  | r :: rest =>
    if c.importsFrom r.name then
      match l.addReference r with
      | .ok l => c.linkReferences l rest
      | .error (s, fault) => .error (s, .link r.name fault)
    else c.linkReferences l rest

/-- Makes an instance of the module in a store of its own. -/
def instantiate (c : Compiled) (host : Host) (references : List Compiled) :
    Store × Except InvokeError Nat :=
  match c.linkReferences (.ofHost host) references with
  | .error (s, e) => (s, .error e)
  | .ok l =>
    match l.instantiate c.module with
    | (s, .ok owner) => (s, .ok owner)
    | (s, .error fault) => (s, .error (.instantiate c.name fault))

end Compiled

/-- The place and type of a function that an instance exports. -/
def Store.exportedFunction? (s : Store) (owner : Nat) (name : String) :
    Option (Nat × FuncType) := do
  let e ← (← s.instances[owner]?).exports.lookup name
  if e.kind = .func then return (e.address, (← s.functions[e.address]?).type) else none

/-- Calls an exported function of the signature; its results. -/
def Store.callExport (s : Store) (owner : Nat) (name : String) (type : FuncType)
    (args : List Value) : Store × Except InvokeError (List Value) :=
  match s.exportedFunction? owner name with
  | none => (s, .error (.unexpectedSignature name))
  | some (address, found) =>
    if found = type then
      match s.call address args with
      | .values s results => (s, .ok results)
      | .stopped s reason inCode => (s, .error (.failed name reason inCode))
    else (s, .error (.unexpectedSignature name))

/-- The one number among results. -/
def singleI32 : List Value → UInt32
  | [.i32 n] => n
  | _ => 0

namespace Compiled

/-- Runs a command: makes an instance of its type if there is a constructor, and calls the
entry with it. -/
def invokeCommand (c : Compiled) (command : TypeShape) (host : Host) (references : List Compiled) :
    Host × Except InvokeError CommandResult :=
  match command.entry? with
  | none => (host, .error (.noEntry command.name))
  | some entry =>
    match c.instantiate host references with
    | (s, .error e) => (s.host, .error e)
    | (s, .ok owner) =>
      let (s, this) := match command.constructor? with
        | some new => s.callExport owner new.exportName ⟨[], [.i32]⟩ []
        | none => (s, .ok [.i32 0])
      match this with
      | .error e => (s.host, .error e)
      | .ok this =>
        match s.callExport owner entry.exportName ⟨[.i32], [.i32]⟩ [.i32 (singleI32 this)] with
        | (s, .error e) => (s.host, .error e)
        | (s, .ok results) =>
          (s.host, .ok ⟨toSigned 32 (singleI32 results).toNat, s.host.message⟩)

/-- The handle that is passed to a parameter of an event handler. -/
def handleValue (type : ValType) (handle : Nat) : Except InvokeError Value :=
  match type with
  | .i32 => .ok (.i32 handle.toUInt32)
  | .i64 => .ok (.i64 handle.toUInt64)
  | other => .error (.noHandle other)

/-- Runs an event handler with the handles of the sender and of the arguments. -/
def invokeEventHandler (c : Compiled) (method : Method) (host : Host) (references : List Compiled) :
    Host × Except InvokeError Unit :=
  match c.instantiate host references with
  | (s, .error e) => (s.host, .error e)
  | (s, .ok owner) =>
    match s.exportedFunction? owner method.exportName with
    | none => (s.host, .error (.noExport c.name method.exportName))
    | some (address, type) =>
      match (type.params.zip [1, 2]).mapM fun (t, handle) => handleValue t handle with
      | .error e => (s.host, .error e)
      | .ok args =>
        match s.call address args with
        | .values s _ => (s.host, .ok ())
        | .stopped s reason inCode => (s.host, .error (.failed method.exportName reason inCode))

end Compiled

end ScriptHost.Wasm

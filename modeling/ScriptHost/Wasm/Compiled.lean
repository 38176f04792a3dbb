import ScriptHost.Digest
import ScriptHost.Shape
import ScriptHost.Text.Quoted
import ScriptHost.Wasm.Binary.LocalNames
import ScriptHost.Wasm.Host
import ScriptHost.Wasm.Typing

/-!
# Compiled modules

A valid binary with its name, its digest and its shape. The shape has one method for each
exported function, under the type that the export's name stands for.
-/

namespace ScriptHost.Wasm

structure Compiled where
  name : String
  digest : Digest.State
  module : Module
  shape : ModuleShape

/-- The scalar of a type, if it is one. -/
def ValType.scalar? : ValType → Option Scalar
  | i32 => some .i32
  | i64 => some .i64
  | f32 => some .f32
  | f64 => some .f64
  | v128 | funcref => none

/-- The method of an exported function, or why it cannot be one. A parameter without a name
in the binary is called after its number. -/
def methodOf (names : List Binary.LocalName) (method : String) (e : Export) (t : FuncType) :
    Except String Method :=
  match (t.params ++ t.results).find? fun v => v.scalar?.isNone with
  | some v => .error ("method \x60" ++ method ++ "\x60 uses unsupported type " ++ v.shown)
  | none =>
    .ok {
      name := method
      exportName := e.name
      params := (List.range t.params.length).map fun i =>
        (Binary.nameOf? names e.index i).getD ("arg" ++ toString i)
      paramTypes := t.params.filterMap ValType.scalar?
      results := t.results.filterMap ValType.scalar? }

/-- The exported functions of a module with their types, in order. -/
def Module.exportedFunctions (m : Module) : List (Export × FuncType) :=
  m.exports.filterMap fun e =>
    if e.kind = .func then (m.functionType? e.index).map (e, ·) else none

/-- The shape of a module of some name. -/
def Module.shape (m : Module) (name : String) (names : List Binary.LocalName) : ModuleShape where
  name := name
  slots := m.exportedFunctions.foldl (fun slots (e, t) =>
    let (type, method) := splitExport e.name name
    addToSlot type (methodOf names method e t) slots) []

namespace Compiled

/-- The module that the bytes hold, if it is valid. -/
def compile? (name : String) (bytes : List UInt8) : Option Compiled := do
  let m ← Module.ofBytes? bytes
  if m.isValid then
    return { name, digest := Digest.sha256 bytes, module := m,
             shape := m.shape name (Binary.localNames bytes) }
  else none

/-- One line that shows the module's name, digest and number of types. -/
def describe (c : Compiled) : String :=
  "CompiledModule \x7b name: " ++ Text.Quoted.quote c.name ++ ", digest: " ++
    Text.Quoted.quote c.digest.hex ++ ", types: " ++ toString c.shape.slots.length ++ ", .. \x7d"

def hasExport (c : Compiled) (name : String) : Bool := c.module.hasExport name

def importsFrom (c : Compiled) (name : String) : Bool := c.module.importsFrom name

/-- Does the host, the system interface or a reference offer what an import names? -/
def resolves (references : List Compiled) (i : Import) : Bool :=
  if i.module = HostFunction.hostModule then HostFunction.own.any fun f => f.1 = i.name
  else if i.module = HostFunction.systemModule then true
  else references.any fun r => r.name = i.module && r.hasExport i.name

/-- The imports that nothing offers, in order. -/
def unresolvedImports (c : Compiled) (references : List Compiled) : List String :=
  (c.module.imports.filter fun i => !resolves references i).map fun i => i.module ++ "::" ++ i.name

end Compiled

end ScriptHost.Wasm

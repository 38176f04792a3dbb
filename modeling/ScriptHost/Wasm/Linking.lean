import ScriptHost.Wasm.Compiled
import ScriptHost.Wasm.Machine

/-!
# Linking

A linker knows what every import name stands for. A module is instantiated if all its
imports are known and fit: places are made for what it defines, its segments are copied,
and its start function runs.
-/

namespace ScriptHost.Wasm

/-- Why a module cannot be linked or instantiated. -/
inductive LinkFault where
  | unknownImport (module name : String)
  | incompatible (module name : String)
  | definedTwice (module name : String)
  | stopped (reason : Stop) (inCode : Bool)
  deriving DecidableEq

/-- A reason to stop, behind a backtrace if code was running. -/
def Stop.describe (inCode : Bool) (reason : Stop) : String :=
  (if inCode then "<backtrace>: " else "") ++ reason.message

def LinkFault.message : LinkFault → String
  | .unknownImport module name =>
    "unknown import: \x60" ++ module ++ "::" ++ name ++ "\x60 has not been defined"
  | .incompatible module name =>
    "incompatible import type for \x60" ++ module ++ "::" ++ name ++ "\x60"
  | .definedTwice module name => "import of \x60" ++ module ++ "::" ++ name ++ "\x60 defined twice"
  | .stopped reason inCode => reason.describe inCode

/-! ## Instances -/

namespace Store

/-- The value of code that may stand as an initial value. -/
def initial (s : Store) (functions globals : Array Nat) (code : List Instr) : Value :=
  let stack := code.foldl (fun (stack : List Value) instr =>
    match instr, stack with
    | .basic (.i32 n), _ => .i32 n :: stack
    | .basic (.i64 n), _ => .i64 n :: stack
    | .basic (.f32 n), _ => .f32 n :: stack
    | .basic (.f64 n), _ => .f64 n :: stack
    | .basic .refNull, _ => .funcref none :: stack
    | .basic (.refFunc f), _ => .funcref functions[f]? :: stack
    | .basic (.globalGet g), _ =>
      ((globals[g]?.bind (s.globals[·]?)).map GlobalInstance.value).getD default :: stack
    | .basic (.numeric op), b :: a :: rest =>
      match op.eval a.bits b.bits with
      | .ok v => v :: rest
      | .error _ => stack
    | _, _ => stack) []
  stack.headD default

/-- The function that a value refers to. -/
def referred : Value → Option Nat
  | .funcref r => r
  | _ => none

/-- Numbers for `n` new things behind the `size` that are there, after the imported ones. -/
def places (imported : List Nat) (size n : Nat) : Array Nat :=
  (imported ++ (List.range n).map (size + ·)).toArray

/-- Makes places for all that a module defines. `imports` says what its imports stand for. -/
def allocate (s : Store) (m : Module) (imports : List Extern) : Store × Nat :=
  let owner := s.instances.size
  let imported (kind : ExternKind) : List Nat :=
    (imports.filter fun e => e.kind = kind).map Extern.address
  let functions := places (imported .func) s.functions.size m.functions.length
  let tables := places (imported .table) s.tables.size m.tables.length
  let memories := places (imported .memory) s.memories.size m.memories.length
  let globals := places (imported .global) s.globals.size m.globals.length
  let value (code : List Instr) : Value := s.initial functions globals code
  let newFunctions := (m.functions.zip m.codes).map fun (type, code) =>
    Function.code (m.types[type]?.getD default) owner code
  let newTables := m.tables.map fun t =>
    { items := Array.replicate t.limits.min none, max := t.limits.max : TableInstance }
  let newGlobals := m.globals.map fun g =>
    { type := g.type, value := value g.init : GlobalInstance }
  let s := { s with
    functions := s.functions ++ newFunctions.toArray
    tables := s.tables ++ newTables.toArray
    memories := s.memories ++ (m.memories.map Memory.ofLimits).toArray
    globals := s.globals ++ newGlobals.toArray }
  let place (e : Export) : Extern :=
    let all := match e.kind with
      | .func => functions
      | .table => tables
      | .memory => memories
      | .global => globals
    ⟨e.kind, all.getD e.index 0⟩
  let i : Instance := {
    module := m
    functions, tables, memories, globals
    exports := m.exports.map fun e => (e.name, place e)
    elements := (m.elements.map fun e =>
      match e.items with
      | .functions indices => indices.map fun f => functions[f]?
      | .expressions items =>
        items.map fun code => referred (s.initial functions globals code)).toArray
    data := (m.data.map DataSegment.bytes).toArray }
  ({ s with instances := s.instances.push i }, owner)

/-- The place in a table or memory that an active segment is copied to. -/
def offset (s : Store) (i : Instance) (code : List Instr) : Nat :=
  (s.initial i.functions i.globals code).bits

/-- Copies the active element segments, in order; each is empty afterwards, as those are that
are only declared. -/
def copyElements (s : Store) (owner : Nat) :
    List (ElementSegment × Nat) → Except (Store × Trap) Store
  | [] => .ok s
  | (e, n) :: rest =>
    match s.instances[owner]? with
    | none => .ok s
    | some i =>
      let dropped : Store := { s with
        instances :=
          s.instances.setIfInBounds owner { i with elements := i.elements.setIfInBounds n [] } }
      match e.mode with
      | .passive => copyElements s owner rest
      | .declared => copyElements dropped owner rest
      | .active target code =>
        match s.table? i target with
        | none => .error (s, .tableOutOfBounds)
        | some (a, t) =>
          match t.write? (s.offset i code) (i.elements.getD n []) with
          | some t => copyElements (dropped.setTable a t) owner rest
          | none => .error (s, .tableOutOfBounds)

/-- Copies the active data segments, in order. -/
def copyData (s : Store) (owner : Nat) : List (DataSegment × Nat) → Except (Store × Trap) Store
  | [] => .ok s
  | (d, n) :: rest =>
    match s.instances[owner]? with
    | none => .ok s
    | some i =>
      let dropped : Store := { s with
        instances := s.instances.setIfInBounds owner { i with data := i.data.setIfInBounds n [] } }
      match d.mode with
      | .passive | .declared => copyData s owner rest
      | .active target code =>
        match s.memory? i target with
        | none => .error (s, .memoryOutOfBounds)
        | some (a, memory) =>
          match memory.write? (s.offset i code) d.bytes with
          | some memory => copyData (dropped.setMemory a memory) owner rest
          | none => .error (s, .memoryOutOfBounds)

/-- Calls the start function, if there is one. -/
def start (s : Store) (owner : Nat) (m : Module) : Store × Except LinkFault Nat :=
  match m.start, s.instances[owner]? with
  | some f, some i =>
    match s.call (i.functions.getD f 0) [] with
    | .values s _ => (s, .ok owner)
    | .stopped s reason inCode => (s, .error (.stopped reason inCode))
  | _, _ => (s, .ok owner)

/-- Makes an instance of a module whose imports stand for `imports`. -/
def instantiate (s : Store) (m : Module) (imports : List Extern) : Store × Except LinkFault Nat :=
  let (s, owner) := s.allocate m imports
  match s.copyElements owner m.elements.zipIdx with
  | .error (s, t) => (s, .error (.stopped (.trap t) false))
  | .ok s =>
    match s.copyData owner m.data.zipIdx with
    | .error (s, t) => (s, .error (.stopped (.trap t) false))
    | .ok s => s.start owner m

end Store

/-! ## The linker -/

structure Linker where
  store : Store
  definitions : List ((String × String) × Extern) := []
  deriving Inhabited

namespace Linker

/-- Gives a name a meaning, which it must not have yet. -/
def define (l : Linker) (module name : String) (e : Extern) : Except LinkFault Linker :=
  if (l.definitions.lookup (module, name)).isSome then .error (.definedTwice module name)
  else .ok { l with definitions := ((module, name), e) :: l.definitions }

/-- Makes a function of the host and gives it a name. -/
def addFunction (l : Linker) (module name : String) (f : HostFunction) (t : FuncType) : Linker :=
  let e : Extern := ⟨.func, l.store.functions.size⟩
  { store := { l.store with functions := l.store.functions.push (.host t f) }
    definitions := ((module, name), e) :: l.definitions }

/-- Knows the functions of the system interface and of the host. -/
def ofHost (host : Host) : Linker :=
  let l : Linker := { store := { host } }
  let l := HostFunction.system.foldl (fun l (name, f, t) =>
    l.addFunction HostFunction.systemModule name f t) l
  HostFunction.own.foldl (fun l (name, f, t) => l.addFunction HostFunction.hostModule name f t) l

/-- What the imports of a module stand for. All have to be known before any has to fit. -/
def resolve (l : Linker) (m : Module) : Except LinkFault (List Extern) := do
  let found ← m.imports.mapM fun i =>
    match l.definitions.lookup (i.module, i.name) with
    | some e => .ok e
    | none => .error (.unknownImport i.module i.name)
  for (i, e) in m.imports.zip found do
    match l.store.externType? e, m.importType? i with
    | some t, some asked => if !t.fits asked then .error (.incompatible i.module i.name)
    | _, _ => .error (.incompatible i.module i.name)
  return found

/-- Makes an instance of a module. -/
def instantiate (l : Linker) (m : Module) : Store × Except LinkFault Nat :=
  match l.resolve m with
  | .error e => (l.store, .error e)
  | .ok imports => l.store.instantiate m imports

/-- Gives names to all that an instance exports. -/
def defineExports (l : Linker) (module : String) : List (String × Extern) → Except LinkFault Linker
  | [] => .ok l
  | (name, e) :: rest => do (← l.define module name e).defineExports module rest

/-- Makes an instance of a reference and names what it exports after it. -/
def addReference (l : Linker) (r : Compiled) : Except (Store × LinkFault) Linker :=
  match l.instantiate r.module with
  | (s, .error e) => .error (s, e)
  | (s, .ok owner) =>
    let exports := (s.instances[owner]?.map Instance.exports).getD []
    match { l with store := s }.defineExports r.name exports with
    | .ok l => .ok l
    | .error e => .error (s, e)

end Linker

end ScriptHost.Wasm

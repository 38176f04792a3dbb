import ScriptHost.Wasm.Module

/-!
# Valid modules

A module is valid if all numbers in it refer to something and every piece of code is well
typed. Code after a jump is typed on a stack that holds whatever is needed.
-/

namespace ScriptHost.Wasm

/-- The types of the values on the stack, the top first. A value that only unreachable code
has may be of every type; an `endless` stack has such values below the ones it lists. -/
structure Operands where
  types : List (Option ValType)
  endless : Bool := false
  deriving DecidableEq, Inhabited

namespace Operands

def unreachable : Operands := ⟨[], true⟩

def push (o : Operands) (t : ValType) : Operands := { o with types := some t :: o.types }

/-- Pushes values, the last of which comes to the top. -/
def pushAll (o : Operands) (ts : List ValType) : Operands := ts.foldl push o

/-- The stack that code with these parameters begins with. -/
def ofTypes (ts : List ValType) : Operands := (⟨[], false⟩ : Operands).pushAll ts

/-- Takes a value of any type from the top. -/
def popAny : Operands → Option (Option ValType × Operands)
  | ⟨t :: rest, e⟩ => some (t, ⟨rest, e⟩)
  | ⟨[], true⟩ => some (none, ⟨[], true⟩)
  | ⟨[], false⟩ => none

/-- Takes a value of the type from the top. -/
def pop (o : Operands) (t : ValType) : Option Operands := do
  let (found, rest) ← o.popAny
  if found.all (· = t) then some rest else none

/-- Takes values from the top, the last of them first. -/
def popAll (o : Operands) (ts : List ValType) : Option Operands := ts.reverse.foldlM pop o

/-- Does the stack hold values of exactly these types? -/
def isExactly (o : Operands) (ts : List ValType) : Bool :=
  match o.popAll ts with
  | some rest => rest.types.isEmpty
  | none => false

/-- Values of `params` are replaced by values of `results`. -/
def apply (o : Operands) (params results : List ValType) : Option Operands :=
  (o.popAll params).map fun o => o.pushAll results

end Operands

/-- What code refers to. `labels` holds what a jump to each enclosing block takes along, the
innermost first; `declared` holds the functions that may be referred to as values. -/
structure Context where
  module : Module
  tables : List Limits
  memories : List Limits
  globals : List GlobalType
  functions : List Nat
  declared : List Nat
  locals : Array ValType := #[]
  labels : List (List ValType) := []
  results : List ValType := []

namespace Context

def function? (c : Context) (index : Nat) : Option FuncType := do
  c.module.types[(← c.functions[index]?)]?

def requireTable (c : Context) (index : Nat) : Option Unit :=
  if index < c.tables.length then some () else none

def requireMemory (c : Context) (index : Nat) : Option Unit :=
  if index < c.memories.length then some () else none

def requireData (c : Context) (index : Nat) : Option Unit := do
  if index < (← c.module.dataCount) then some () else none

def requireElements (c : Context) (index : Nat) : Option Unit :=
  if index < c.module.elements.length then some () else none

def blockType? (c : Context) : BlockType → Option FuncType
  | .results ts => some ⟨[], ts⟩
  | .index n => c.module.types[n]?

/-- Is the access aligned no more than its size, and its offset an address? -/
def checkAccess (c : Context) (access : Access) (arg : MemArg) : Option Unit := do
  c.requireMemory arg.memory
  if Nat.pow 2 arg.align ≤ access.bytes ∧ arg.offset < UInt32.size then some () else none

/-- The stack after an instruction without a body. -/
def checkBasic (c : Context) (o : Operands) : Basic → Option Operands
  | .unreachable => some .unreachable
  | .nop => some o
  | .drop => o.popAny.map (·.2)
  | .select (some [t]) => o.apply [t, t, .i32] [t]
  | .select (some _) => none
  | .select none => do
    let o ← o.pop .i32
    let (s, o) ← o.popAny
    let (t, o) ← o.popAny
    if s = some .funcref ∨ t = some .funcref then none
    else if s.isNone then some { o with types := t :: o.types }
    else if t.isNone ∨ s = t then some { o with types := s :: o.types }
    else none
  | .br label => do
    let _ ← o.popAll (← c.labels[label]?)
    some .unreachable
  | .brIf label => do
    let ts ← c.labels[label]?
    (← o.pop .i32).apply ts ts
  | .brTable labels last => do
    let o ← o.pop .i32
    let ts ← c.labels[last]?
    let _ ← o.popAll ts
    for label in labels do
      let us ← c.labels[label]?
      let _ ← o.popAll us
      if us.length ≠ ts.length then none
    some .unreachable
  | .leave => do
    let _ ← o.popAll c.results
    some .unreachable
  | .call f => do
    let t ← c.function? f
    o.apply t.params t.results
  | .callIndirect type table => do
    c.requireTable table
    let t ← c.module.types[type]?
    (← o.pop .i32).apply t.params t.results
  | .localGet i => do return o.push (← c.locals[i]?)
  | .localSet i => do o.pop (← c.locals[i]?)
  | .localTee i => do
    let t ← c.locals[i]?
    o.apply [t] [t]
  | .globalGet i => do return o.push (← c.globals[i]?).type
  | .globalSet i => do
    let g ← c.globals[i]?
    if g.mutable then o.pop g.type else none
  | .tableGet t => do
    c.requireTable t
    o.apply [.i32] [.funcref]
  | .tableSet t => do
    c.requireTable t
    o.apply [.i32, .funcref] []
  | .load access arg => do
    c.checkAccess access arg
    o.apply [.i32] [access.type]
  | .store access arg => do
    c.checkAccess access arg
    o.apply [.i32, access.type] []
  | .memorySize m => do
    c.requireMemory m
    some (o.push .i32)
  | .memoryGrow m => do
    c.requireMemory m
    o.apply [.i32] [.i32]
  | .i32 _ => some (o.push .i32)
  | .i64 _ => some (o.push .i64)
  | .f32 _ => some (o.push .f32)
  | .f64 _ => some (o.push .f64)
  | .refNull => some (o.push .funcref)
  | .refIsNull => o.apply [.funcref] [.i32]
  | .refFunc f => do
    let _ ← c.function? f
    if c.declared.contains f then some (o.push .funcref) else none
  | .numeric op => o.apply op.type.1 [op.type.2]
  | .memoryInit data memory => do
    c.requireMemory memory
    c.requireData data
    o.apply [.i32, .i32, .i32] []
  | .dataDrop data => do
    c.requireData data
    some o
  | .memoryCopy target source => do
    c.requireMemory target
    c.requireMemory source
    o.apply [.i32, .i32, .i32] []
  | .memoryFill memory => do
    c.requireMemory memory
    o.apply [.i32, .i32, .i32] []
  | .tableInit elements table => do
    c.requireTable table
    c.requireElements elements
    o.apply [.i32, .i32, .i32] []
  | .elementsDrop elements => do
    c.requireElements elements
    some o
  | .tableCopy target source => do
    c.requireTable target
    c.requireTable source
    o.apply [.i32, .i32, .i32] []
  | .tableGrow t => do
    c.requireTable t
    o.apply [.funcref, .i32] [.i32]
  | .tableSize t => do
    c.requireTable t
    some (o.push .i32)
  | .tableFill t => do
    c.requireTable t
    o.apply [.i32, .funcref, .i32] []

mutual

/-- The stack after an instruction. -/
def check (c : Context) (o : Operands) : Instr → Option Operands
  | .basic op => c.checkBasic o op
  | .block type body => do
    let t ← c.blockType? type
    let o ← o.popAll t.params
    let inner ← checkAll { c with labels := t.results :: c.labels } (.ofTypes t.params) body
    if inner.isExactly t.results then some (o.pushAll t.results) else none
  | .loop type body => do
    let t ← c.blockType? type
    let o ← o.popAll t.params
    let inner ← checkAll { c with labels := t.params :: c.labels } (.ofTypes t.params) body
    if inner.isExactly t.results then some (o.pushAll t.results) else none
  | .branch type yes no => do
    let t ← c.blockType? type
    let o ← (← o.pop .i32).popAll t.params
    let c := { c with labels := t.results :: c.labels }
    let first ← checkAll c (.ofTypes t.params) yes
    let second ← checkAll c (.ofTypes t.params) no
    if first.isExactly t.results ∧ second.isExactly t.results then some (o.pushAll t.results)
    else none

def checkAll (c : Context) (o : Operands) : List Instr → Option Operands
  | [] => some o
  | i :: rest => do checkAll c (← check c o i) rest

end

/-- May the instruction stand in an initial value? Only imported globals can be read there,
which have their values before. -/
def isConstant (c : Context) : Instr → Bool
  | .basic (.i32 _) | .basic (.i64 _) | .basic (.f32 _) | .basic (.f64 _) => true
  | .basic .refNull | .basic (.refFunc _) => true
  | .basic (.globalGet i) => (c.module.importedGlobals[i]?).any fun g => !g.mutable
  | .basic (.numeric (.intBinary _ op)) => op = .add ∨ op = .sub ∨ op = .mul
  | _ => false

/-- Is the code an initial value of the type? -/
def isInitial (c : Context) (t : ValType) (code : List Instr) : Bool :=
  code.all c.isConstant &&
    match c.checkAll ⟨[], false⟩ code with
    | some o => o.isExactly [t]
    | none => false

/-- Is the code of a function well typed? A jump out of the outermost block leaves it. -/
def isFunction (c : Context) (type : Nat) (code : Code) : Bool :=
  match c.module.types[type]? with
  | none => false
  | some t =>
    let count := code.locals.foldl (fun n run => n + run.1) t.params.length
    if count ≤ 50000 then
      let locals := t.params ++ code.locals.flatMap fun (n, t) => List.replicate n t
      let c := { c with locals := locals.toArray, labels := [t.results], results := t.results }
      match c.checkAll ⟨[], false⟩ code.body with
      | some o => o.isExactly t.results
      | none => false
    else false

end Context

namespace Module

/-- The functions that initial values refer to. -/
def referredBy (code : List Instr) : List Nat :=
  code.filterMap fun
    | .basic (.refFunc f) => some f
    | _ => none

/-- The functions that stand somewhere outside of code. -/
def declaredFunctions (m : Module) : List Nat :=
  (m.globals.flatMap fun g => referredBy g.init) ++
  (m.exports.filterMap fun e => if e.kind = .func then some e.index else none) ++
  m.elements.flatMap fun e =>
    match e.items with
    | .functions indices => indices
    | .expressions items => items.flatMap referredBy

def context (m : Module) : Context where
  module := m
  tables := m.allTables
  memories := m.allMemories
  globals := m.allGlobals
  functions := m.functionTypes
  declared := m.declaredFunctions

/-- Are the limits in order and not above `most`? -/
def limitsAtMost (most : Nat) (l : Limits) : Bool :=
  l.min ≤ most && l.max.all fun n => l.min ≤ n && n ≤ most

/-- Tables hold at most ten million elements to begin with. -/
def tableLimits (l : Limits) : Bool := l.min ≤ 10000000 && limitsAtMost (UInt32.size - 1) l

def isActiveAt (c : Context) (targets : Nat) : SegmentMode → Bool
  | .active target offset => target < targets && c.isInitial .i32 offset
  | .passive | .declared => true

def validElements (c : Context) (e : ElementSegment) : Bool :=
  isActiveAt c c.tables.length e.mode &&
    match e.items with
    | .functions indices => indices.all fun f => (c.function? f).isSome
    | .expressions items => items.all (c.isInitial .funcref)

def validStart (c : Context) : Option Nat → Bool
  | none => true
  | some f => c.function? f = some ⟨[], []⟩

/-- Does everything in the module refer to what is there, and is all code well typed? -/
def isValid (m : Module) : Bool :=
  let c := m.context
  m.types.all (fun t => t.params.length ≤ 1000 && t.results.length ≤ 1000) &&
  c.functions.all (· < m.types.length) &&
  c.tables.length ≤ 100 && c.tables.all tableLimits &&
  c.memories.length ≤ 100 && c.memories.all (limitsAtMost 65536) &&
  m.globals.all (fun g => c.isInitial g.type.type g.init) &&
  m.exports.all (fun e => (m.exportType? e).isSome) &&
  (m.exports.map Export.name).Nodup &&
  validStart c m.start &&
  m.elements.all (validElements c) &&
  m.data.all (fun d => isActiveAt c c.memories.length d.mode) &&
  m.dataCount.all (· = m.data.length) &&
  m.functions.length = m.codes.length &&
  (m.functions.zip m.codes).all fun (type, code) => c.isFunction type code

end Module

end ScriptHost.Wasm

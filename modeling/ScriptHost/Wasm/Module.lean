import ScriptHost.Wasm.Numeric

/-!
# Modules

A module as its binary and its text both describe it: lists of types, imports, functions
and so on that refer to each other by number. The code of a function is a tree.
-/

namespace ScriptHost.Wasm

/-- Where a memory instruction reads or writes; `align` is a power of two. -/
structure MemArg where
  align : Nat
  offset : Nat
  memory : Nat := 0
  deriving DecidableEq, Inhabited

/-- The type of a block: at most one result, or the number of a function type. -/
inductive BlockType where
  | results (types : List ValType)
  | index (n : Nat)
  deriving DecidableEq, Inhabited

/-- A load or store moves a number of bytes between memory and a value. -/
structure Access where
  type : ValType
  bytes : Nat
  signed : Bool := false
  deriving DecidableEq, Inhabited

namespace Access

/-- Opcode and name of every load. -/
def loads : List (Nat × String × Access) :=
  [(0x28, "i32.load", ⟨.i32, 4, false⟩), (0x29, "i64.load", ⟨.i64, 8, false⟩),
    (0x2a, "f32.load", ⟨.f32, 4, false⟩), (0x2b, "f64.load", ⟨.f64, 8, false⟩),
    (0x2c, "i32.load8_s", ⟨.i32, 1, true⟩), (0x2d, "i32.load8_u", ⟨.i32, 1, false⟩),
    (0x2e, "i32.load16_s", ⟨.i32, 2, true⟩), (0x2f, "i32.load16_u", ⟨.i32, 2, false⟩),
    (0x30, "i64.load8_s", ⟨.i64, 1, true⟩), (0x31, "i64.load8_u", ⟨.i64, 1, false⟩),
    (0x32, "i64.load16_s", ⟨.i64, 2, true⟩), (0x33, "i64.load16_u", ⟨.i64, 2, false⟩),
    (0x34, "i64.load32_s", ⟨.i64, 4, true⟩), (0x35, "i64.load32_u", ⟨.i64, 4, false⟩)]

/-- Opcode and name of every store. -/
def stores : List (Nat × String × Access) :=
  [(0x36, "i32.store", ⟨.i32, 4, false⟩), (0x37, "i64.store", ⟨.i64, 8, false⟩),
    (0x38, "f32.store", ⟨.f32, 4, false⟩), (0x39, "f64.store", ⟨.f64, 8, false⟩),
    (0x3a, "i32.store8", ⟨.i32, 1, false⟩), (0x3b, "i32.store16", ⟨.i32, 2, false⟩),
    (0x3c, "i64.store8", ⟨.i64, 1, false⟩), (0x3d, "i64.store16", ⟨.i64, 2, false⟩),
    (0x3e, "i64.store32", ⟨.i64, 4, false⟩)]

end Access

/-- Instructions without a body of their own. -/
inductive Basic where
  | unreachable
  | nop
  | drop
  | select (types : Option (List ValType))
  | br (label : Nat)
  | brIf (label : Nat)
  | brTable (labels : List Nat) (last : Nat)
  | leave
  | call (function : Nat)
  | callIndirect (type table : Nat)
  | localGet (index : Nat)
  | localSet (index : Nat)
  | localTee (index : Nat)
  | globalGet (index : Nat)
  | globalSet (index : Nat)
  | tableGet (table : Nat)
  | tableSet (table : Nat)
  | load (access : Access) (arg : MemArg)
  | store (access : Access) (arg : MemArg)
  | memorySize (memory : Nat)
  | memoryGrow (memory : Nat)
  | i32 (n : UInt32)
  | i64 (n : UInt64)
  | f32 (bits : UInt32)
  | f64 (bits : UInt64)
  | refNull
  | refIsNull
  | refFunc (function : Nat)
  | numeric (op : Numeric)
  | memoryInit (data memory : Nat)
  | dataDrop (data : Nat)
  | memoryCopy (target source : Nat)
  | memoryFill (memory : Nat)
  | tableInit (elements table : Nat)
  | elementsDrop (elements : Nat)
  | tableCopy (target source : Nat)
  | tableGrow (table : Nat)
  | tableSize (table : Nat)
  | tableFill (table : Nat)
  deriving DecidableEq, Inhabited

inductive Instr where
  | basic (op : Basic)
  | block (type : BlockType) (body : List Instr)
  | loop (type : BlockType) (body : List Instr)
  | branch (type : BlockType) (yes no : List Instr)
  deriving Inhabited

/-- What an import has to be. -/
inductive ImportType where
  | func (type : Nat)
  | table (limits : Limits)
  | memory (limits : Limits)
  | global (type : GlobalType)
  deriving DecidableEq, Inhabited

structure Import where
  module : String
  name : String
  type : ImportType
  deriving DecidableEq, Inhabited

structure Export where
  name : String
  kind : ExternKind
  index : Nat
  deriving DecidableEq, Inhabited

structure Global where
  type : GlobalType
  init : List Instr
  deriving Inhabited

structure Table where
  limits : Limits
  init : Option (List Instr) := none
  deriving Inhabited

/-- When a segment is copied: at the start to a place, on request, or never. -/
inductive SegmentMode where
  | active (target : Nat) (offset : List Instr)
  | passive
  | declared
  deriving Inhabited

/-- Elements by the numbers of their functions, or by expressions. -/
inductive Elements where
  | functions (indices : List Nat)
  | expressions (items : List (List Instr))
  deriving Inhabited

structure ElementSegment where
  mode : SegmentMode
  items : Elements
  deriving Inhabited

structure DataSegment where
  mode : SegmentMode
  bytes : List UInt8
  deriving Inhabited

/-- The locals of a function, in runs of one type, and its code. -/
structure Code where
  locals : List (Nat × ValType)
  body : List Instr
  deriving Inhabited

structure Module where
  types : List FuncType := []
  imports : List Import := []
  functions : List Nat := []
  tables : List Table := []
  memories : List Limits := []
  globals : List Global := []
  exports : List Export := []
  start : Option Nat := none
  elements : List ElementSegment := []
  dataCount : Option Nat := none
  codes : List Code := []
  data : List DataSegment := []
  deriving Inhabited

namespace Module

/-- The type numbers of all functions, the imported ones first. -/
def functionTypes (m : Module) : List Nat :=
  m.imports.filterMap (fun i => match i.type with | .func t => some t | _ => none) ++ m.functions

def allTables (m : Module) : List Limits :=
  m.imports.filterMap (fun i => match i.type with | .table l => some l | _ => none) ++
    m.tables.map Table.limits

def allMemories (m : Module) : List Limits :=
  m.imports.filterMap (fun i => match i.type with | .memory l => some l | _ => none) ++ m.memories

def importedGlobals (m : Module) : List GlobalType :=
  m.imports.filterMap (fun i => match i.type with | .global t => some t | _ => none)

def allGlobals (m : Module) : List GlobalType :=
  m.importedGlobals ++ m.globals.map Global.type

/-- The type of a function by number. -/
def functionType? (m : Module) (index : Nat) : Option FuncType := do
  m.types[(← m.functionTypes[index]?)]?

/-- What stands behind an export. -/
def exportType? (m : Module) (e : Export) : Option ExternType :=
  match e.kind with
  | .func => (m.functionType? e.index).map .func
  | .table => m.allTables[e.index]?.map .table
  | .memory => m.allMemories[e.index]?.map .memory
  | .global => m.allGlobals[e.index]?.map .global

/-- What an import asks for. -/
def importType? (m : Module) (i : Import) : Option ExternType :=
  match i.type with
  | .func t => m.types[t]?.map .func
  | .table l => some (.table l)
  | .memory l => some (.memory l)
  | .global t => some (.global t)

/-- Does the module export anything of the name? -/
def hasExport (m : Module) (name : String) : Bool := m.exports.any fun e => e.name = name

/-- Does it import anything from a module of the name? -/
def importsFrom (m : Module) (name : String) : Bool := m.imports.any fun i => i.module = name

end Module

end ScriptHost.Wasm

/-!
# Types of WebAssembly modules

The types of values, functions, memories, tables and globals, and of what modules import
and export. Addresses have 32 bits. References are to functions only.
-/

namespace ScriptHost.Wasm

inductive ValType where
  | i32
  | i64
  | f32
  | f64
  | v128
  | funcref
  deriving DecidableEq, Repr, Inhabited

namespace ValType

/-- The byte that stands for the type. -/
def code : ValType → UInt8
  | i32 => 0x7f
  | i64 => 0x7e
  | f32 => 0x7d
  | f64 => 0x7c
  | v128 => 0x7b
  | funcref => 0x70

def all : List ValType := [i32, i64, f32, f64, v128, funcref]

def ofCode? (b : UInt8) : Option ValType := all.find? fun t => t.code = b

/-- The keyword of the type in text. -/
def keyword : ValType → String
  | i32 => "i32"
  | i64 => "i64"
  | f32 => "f32"
  | f64 => "f64"
  | v128 => "v128"
  | funcref => "funcref"

/-- The type as messages show it; a reference is written out. -/
def shown : ValType → String
  | funcref => "(ref null func)"
  | t => t.keyword

theorem ofCode?_code (t : ValType) : ofCode? t.code = some t := by cases t <;> rfl

end ValType

structure FuncType where
  params : List ValType
  results : List ValType
  deriving DecidableEq, Inhabited

/-- The least and possibly the greatest number of pages or elements. -/
structure Limits where
  min : Nat
  max : Option Nat
  deriving DecidableEq, Inhabited

structure GlobalType where
  type : ValType
  mutable : Bool
  deriving DecidableEq, Inhabited

/-- What stands behind an import or export. Tables hold references to functions. -/
inductive ExternType where
  | func (type : FuncType)
  | table (limits : Limits)
  | memory (limits : Limits)
  | global (type : GlobalType)
  deriving DecidableEq, Inhabited

/-- The kinds of things that are imported and exported, with the bytes that stand for them. -/
inductive ExternKind where
  | func
  | table
  | memory
  | global
  deriving DecidableEq, Repr, Inhabited

def ExternKind.code : ExternKind → UInt8
  | func => 0
  | table => 1
  | memory => 2
  | global => 3

def ExternKind.ofCode? (b : UInt8) : Option ExternKind :=
  [func, table, memory, global].find? fun k => k.code = b

end ScriptHost.Wasm

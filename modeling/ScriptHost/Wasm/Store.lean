import ScriptHost.Wasm.Host
import ScriptHost.Wasm.Module

/-!
# The store

Everything that running modules share or own: functions, tables, memories, globals and the
instances of modules, each known by its place, and the state of the host.
-/

namespace ScriptHost.Wasm

/-- Something that a module exports or imports, by its place in the store. -/
structure Extern where
  kind : ExternKind
  address : Nat
  deriving DecidableEq, Inhabited

/-- A module with places for all it refers to. Segments that were dropped are empty. -/
structure Instance where
  module : Module
  functions : Array Nat
  tables : Array Nat
  memories : Array Nat
  globals : Array Nat
  exports : List (String × Extern)
  elements : Array (List (Option Nat))
  data : Array (List UInt8)
  deriving Inhabited

/-- A function of the host, or the code of an instance. -/
inductive Function where
  | host (type : FuncType) (f : HostFunction)
  | code (type : FuncType) (owner : Nat) (code : Code)
  deriving Inhabited

def Function.type : Function → FuncType
  | host t _ => t
  | code t _ _ => t

structure TableInstance where
  items : Array (Option Nat)
  max : Option Nat
  deriving Inhabited

structure GlobalInstance where
  type : GlobalType
  value : Value
  deriving Inhabited

structure Store where
  functions : Array Function := #[]
  tables : Array TableInstance := #[]
  memories : Array Memory := #[]
  globals : Array GlobalInstance := #[]
  instances : Array Instance := #[]
  host : Host := {}
  deriving Inhabited

namespace TableInstance

/-- The items of a range that lies inside the table. -/
def read? (t : TableInstance) (start n : Nat) : Option (List (Option Nat)) :=
  if start + n ≤ t.items.size then some ((t.items.toList.drop start).take n) else none

/-- The table with items from a place on, if they lie inside. -/
def write? (t : TableInstance) (start : Nat) (items : List (Option Nat)) : Option TableInstance :=
  if start + items.length ≤ t.items.size then
    some { t with
      items := (items.zipIdx start).foldl (fun a (item, i) => a.setIfInBounds i item) t.items }
  else none

/-- The greatest number of items that a table grows to. -/
def limit (t : TableInstance) : Nat := min (t.max.getD 10000000) 10000000

def grow? (t : TableInstance) (n : Nat) (item : Option Nat) : Option TableInstance :=
  if t.items.size + n ≤ t.limit then
    some { t with items := t.items ++ Array.replicate n item }
  else none

end TableInstance

namespace Store

/-- The type of what stands at a place, with the present size of tables and memories. -/
def externType? (s : Store) (e : Extern) : Option ExternType :=
  match e.kind with
  | .func => s.functions[e.address]?.map fun f => .func f.type
  | .table => s.tables[e.address]?.map fun t => .table ⟨t.items.size, t.max⟩
  | .memory => s.memories[e.address]?.map fun m => .memory ⟨m.pages, m.max⟩
  | .global => s.globals[e.address]?.map fun g => .global g.type

/-- The memory that an instance exports as `memory`. -/
def exportedMemory? (s : Store) (owner : Nat) : Option Nat := do
  let i ← s.instances[owner]?
  let e ← i.exports.lookup "memory"
  if e.kind = .memory then some e.address else none

end Store

/-- Does what is there fit what is asked for? A memory or table may be greater than asked, and
its limit lower. -/
def ExternType.fits (found asked : ExternType) : Bool :=
  match found, asked with
  | .func t, .func u => t = u
  | .global t, .global u => t = u
  | .table l, .table m | .memory l, .memory m =>
    m.min ≤ l.min && m.max.all fun most => l.max.any (· ≤ most)
  | _, _ => false

end ScriptHost.Wasm

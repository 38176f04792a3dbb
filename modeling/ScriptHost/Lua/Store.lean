import ScriptHost.Lua.Code
import ScriptHost.Lua.Table

/-!
# The store

All that functions of scripts share: tables, functions, the cells of variables, threads,
and what the host has raised. References are numbers that count up. A reference to nothing
reads as empty, and writing through it makes what is missing.
-/

namespace ScriptHost.Lua

/-- A function of a script with the cells of the variables that it shares. -/
structure Closure where
  prototype : Prototype
  upvalues : Array Nat

instance : Inhabited Closure := ⟨⟨default, #[]⟩⟩

/-- Why a function that the host adds fails: a script that it calls raises an error, or a value
is not of the type that it needs. -/
inductive Cause where
  | raised (message : Bytes)
  | conversion (source target : String) (expected : Option String)

/-- What the host raises: the end of the script with a status, or a failure inside one of the
functions that the host adds, with the calls that it happened in. -/
inductive Failure where
  | exit (status : Int)
  | inCallback (cause : Cause) (traceback : Bytes)

instance : Inhabited Failure := ⟨.exit 0⟩

/-- A call of a function of a script. `many` holds the values that wait beside the stack,
`guarded` the slots whose values are closed at the end of their block, and `raising` the
error that is passed on once they are. `isTail` where it has taken the place of its caller. -/
structure Activation where
  closure : Nat
  prototype : Prototype
  pc : Nat := 0
  slots : Array Nat := #[]
  stack : List Value := []
  many : List Value := []
  arguments : List Value := []
  guarded : List Nat := []
  raising : Option Value := none
  isTail : Bool := false

instance : Inhabited Activation := ⟨{ closure := 0, prototype := default }⟩

/-- How far a thread is. A suspended one has its calls, the running one first; a waiting one
has resumed another; a dead one may have died of an error. -/
inductive Thread where
  | fresh (f : Value)
  | suspended (calls : List Activation)
  | running
  | waiting
  | dead (error : Option Value)

instance : Inhabited Thread := ⟨.dead none⟩

/-- What a printer wrote, and the sink that it wrote to. -/
structure Written where
  sink : Nat
  text : String

/-- Where in memory a value lies, as texts show it. -/
abbrev Layout := Value → Nat

/-- The layout of objects that follow on each other. -/
def Layout.standard : Layout
  | .table a => 0x55550000 + 64 * a
  | .closure a => 0x55550008 + 64 * a
  | .thread a => 0x55550018 + 64 * a
  | _ => 0x55550010

/-- `written` is what was written, latest first; `current` is the running thread; `traceback`
tells the calls in which the latest error was raised that no script caught; `layout` is the
choice of those who give out memory. -/
structure Store where
  tables : Array Table := #[]
  closures : Array Closure := #[]
  cells : Array Value := #[]
  threads : Array Thread := #[]
  failures : Array Failure := #[]
  serial : Nat := 0
  written : List Written := []
  current : Nat := 0
  traceback : Bytes := []
  layout : Layout := .standard

instance : Inhabited Store := ⟨{}⟩

namespace Store

/-- The array with a value at a place, extended as far as it takes. -/
def setAt {α : Type} [Inhabited α] (xs : Array α) (i : Nat) (x : α) : Array α :=
  if i < xs.size then xs.setIfInBounds i x
  else (xs ++ Array.replicate (i - xs.size) default).push x

def table (s : Store) (address : Nat) : Table := s.tables.getD address {}

def setTable (s : Store) (address : Nat) (t : Table) : Store :=
  { s with tables := setAt s.tables address t }

/-- Changes a table in its place. -/
def modifyTable (s : Store) (address : Nat) (f : Table → Table) : Store :=
  if address < s.tables.size then { s with tables := s.tables.modify address f }
  else s.setTable address (f {})

def newTable (s : Store) (t : Table) : Store × Value :=
  let address := s.tables.size
  ({ s with tables := s.tables.push t }, .table address)

def cell (s : Store) (address : Nat) : Value := s.cells.getD address .nil

def setCell (s : Store) (address : Nat) (v : Value) : Store :=
  { s with cells := setAt s.cells address v }

def newCell (s : Store) (v : Value) : Store × Nat :=
  let address := s.cells.size
  ({ s with cells := s.cells.push v }, address)

def newClosure (s : Store) (c : Closure) : Store × Value :=
  let address := s.closures.size
  ({ s with closures := s.closures.push c }, .closure address)

def newThread (s : Store) (t : Thread) : Store × Nat :=
  let address := s.threads.size
  ({ s with threads := s.threads.push t }, address)

def thread (s : Store) (address : Nat) : Thread := s.threads.getD address default

def setThread (s : Store) (address : Nat) (t : Thread) : Store :=
  { s with threads := setAt s.threads address t }

def newFailure (s : Store) (f : Failure) : Store × Value :=
  let address := s.failures.size
  ({ s with failures := s.failures.push f }, .failure address)

/-- Notes the calls that a failure happened in, the first time that it is raised. -/
def noteOrigin (s : Store) (address : Nat) (traceback : Bytes) : Store :=
  match s.failures.getD address default with
  | .inCallback cause [] =>
    { s with failures := setAt s.failures address (.inCallback cause traceback) }
  | _ => s

def write (s : Store) (sink : Nat) (text : String) : Store :=
  { s with written := ⟨sink, text⟩ :: s.written }

/-! ## What every store has -/

/-- The tables at fixed places. -/
def globals : Nat := 0
def stringMeta : Nat := 1
def listMeta : Nat := 2

/-- The thread that a script begins in. -/
def mainThread : Nat := 0

/-- The table that lends a value its behaviour. -/
def metatable? (s : Store) : Value → Option Nat
  | .table a => (s.table a).metatable
  | .string _ => some stringMeta
  | _ => none

/-- What a value does at an event. -/
def event (s : Store) (v : Value) (name : Bytes) : Value :=
  match s.metatable? v with
  | some m => (s.table m).getString name
  | none => .nil

/-- The name of the type of a value, which a metatable can replace. -/
def typeName (s : Store) (v : Value) : Bytes :=
  match v with
  | .table _ =>
    match s.event v "__name" with
    | .string name => name
    | _ => Bytes.ofString v.typeName
  | _ => Bytes.ofString v.typeName

/-- How a look-up goes on: with a value, with a call, or with an error of the object that
has no fields. -/
inductive Found where
  | value (v : Value)
  | call (f : Value) (args : List Value)
  | noFields (object : Value)
  | loop

/-- Looks up a key in an object, through the tables that its metatable names. -/
def lookup (s : Store) (key : Value) : Nat → Value → Found
  | 0, _ => .loop
  | fuel + 1, object =>
    match object with
    | .table a =>
      let t := s.table a
      match t.get key with
      | .nil =>
        match t.metatable with
        | none => .value .nil
        | some m =>
          match (s.table m).getString "__index" with
          | .nil => .value .nil
          | h@(.closure _) | h@(.builtin _) => .call h [object, key]
          | h => lookup s key fuel h
      | v => .value v
    | _ =>
      match s.event object "__index" with
      | .nil => .noFields object
      | h@(.closure _) | h@(.builtin _) => .call h [object, key]
      | h => lookup s key fuel h

/-- How an assignment to an item goes on: into a table at an address, unless a function is to
be called. -/
inductive Assigned where
  | into (address : Nat)
  | call (f : Value) (args : List Value)
  | noFields (object : Value)
  | badKey (reason : String)
  | loop

/-- Why a value cannot be a key. -/
def badKey? : Value → Option String
  | .nil => some "table index is nil"
  | .number (.float x) => if x == x then none else some "table index is NaN"
  | _ => none

/-- Where an assignment to a key of an object goes, through what its metatable names. -/
def assign (s : Store) (key value : Value) : Nat → Value → Assigned
  | 0, _ => .loop
  | fuel + 1, object =>
    let raw (a : Nat) : Assigned :=
      match badKey? key with
      | some reason => .badKey reason
      | none => .into a
    match object with
    | .table a =>
      let t := s.table a
      match t.get key, t.metatable with
      | .nil, some m =>
        match (s.table m).getString "__newindex" with
        | .nil => raw a
        | h@(.closure _) | h@(.builtin _) => .call h [object, key, value]
        | h => assign s key value fuel h
      | _, _ => raw a
    | _ =>
      match s.event object "__newindex" with
      | .nil => .noFields object
      | h@(.closure _) | h@(.builtin _) => .call h [object, key, value]
      | h => assign s key value fuel h

/-- The longest chain of tables that a look-up follows. -/
def maxChain : Nat := 2000

end Store

end ScriptHost.Lua

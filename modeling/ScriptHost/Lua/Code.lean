import ScriptHost.Lua.Value

/-!
# Code

What a function of a script does, as steps on a stack of values. Jumps count from the step
after them. Variables stand in cells, which functions share with the functions inside.
-/

namespace ScriptHost.Lua

/-- Where a value comes from, as messages name it. -/
structure Origin where
  kind : String
  name : Bytes
  deriving DecidableEq

def Origin.text (o : Origin) : Bytes := Bytes.ofString o.kind ++ " '" ++ o.name ++ "'"

inductive Comparison where
  | eq | ne | lt | le | gt | ge
  deriving DecidableEq

/-- What stands in the text of a script as it is. -/
inductive Constant where
  | nil
  | bool (b : Bool)
  | number (n : Number)
  | string (s : Bytes)

def Constant.value : Constant → Value
  | nil => .nil
  | bool b => .bool b
  | number n => .number n
  | string s => .string s

/-- One step. `want` is the number of values that are taken from many, none for all: then
they wait beside the stack for the next step, which takes them along where it has
`spread`. -/
inductive Instr where
  | push (c : Constant)
  | varargs (want : Option Nat)
  | loadLocal (slot : Nat)
  | storeLocal (slot : Nat)
  | declare (slot : Nat)
  | loadUpvalue (index : Nat)
  | storeUpvalue (index : Nat)
  | index (object : Option Origin)
  | setIndex (below : Nat) (object : Option Origin)
  | method (name : Bytes) (object : Option Origin)
  | drop (count : Nat)
  | call (count : Nat) (spread : Bool) (want : Option Nat) (callee : Option Origin)
  | tailCall (count : Nat) (spread : Bool) (callee : Option Origin)
  | leave (count : Nat) (spread : Bool)
  | jump (offset : Int)
  | jumpUnless (offset : Int)
  | skipUnless (offset : Int)
  | skipIf (offset : Int)
  | arithmetic (op : Arithmetic) (left right : Option Origin)
  | concat (left right : Option Origin)
  | compare (op : Comparison)
  | negate
  | length (operand : Option Origin)
  | closure (index : Nat)
  | newTable
  | setField (below : Nat)
  | setItems (start count : Nat) (spread : Bool)
  | forPrepare (slot : Nat) (offset : Int)
  | forNext (slot : Nat) (offset : Int)
  | eachCall (slot count : Nat)
  | eachTest (slot : Nat) (offset : Int)
  | guard (slot : Nat) (name : Bytes)
  | close (level : Nat)
  | leap (level : Nat) (offset : Int)
  | label (id : Nat)
  | goto (id : Nat)

/-- A step and the line that messages give for it. -/
structure Step where
  instr : Instr
  line : Nat

abbrev Code := List Step

/-- What a function shares with the function around it: one of its variables, or one that it
shares itself. -/
inductive Capture where
  | ofLocal (slot : Nat)
  | ofUpvalue (index : Nat)

/-- The code of a function, with the functions inside. `chunk` names the text that it is from,
`line` is where it begins there; a whole text has 0. -/
structure Prototype where
  chunk : Bytes
  line : Nat
  parameters : Nat
  isVariadic : Bool
  code : Array Step
  inner : List Prototype
  captures : List Capture

instance : Inhabited Prototype := ⟨⟨[], 0, 0, false, #[], [], []⟩⟩

/-- Puts jumps in place of the gotos. `targets` has, for each of them, its label and the
number of variables that are still open there. -/
def Code.resolve (targets : List (Nat × Nat × Nat)) (code : Code) : Array Step :=
  let place (label : Nat) : Nat := (code.findIdx? fun s =>
    match s.instr with
    | .label id => id = label
    | _ => false).getD code.length
  (code.zipIdx.map fun (s, i) =>
    match s.instr with
    | .goto id =>
      match targets.lookup id with
      | some (label, level) => { s with instr := .leap level ((place label : Int) - (i + 1)) }
      | none => s
    | _ => s).toArray

end ScriptHost.Lua

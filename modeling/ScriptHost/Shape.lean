/-!
# Shapes of compiled modules

A compiled module shows itself as named types with methods. What a host asks for is found
by shape alone: a command is a type whose method `execute` takes and returns one 32-bit
integer, an event handler is a method with the parameters `sender` and `e` or `args`.
-/

namespace ScriptHost

/-- The types of values that methods may take and return. -/
inductive Scalar where
  | i32
  | i64
  | f32
  | f64
  deriving DecidableEq, Repr, Inhabited

namespace Scalar

/-- Integers can carry a handle of the host. -/
def isInteger : Scalar → Bool
  | i32 | i64 => true
  | f32 | f64 => false

def name : Scalar → String
  | i32 => "i32"
  | i64 => "i64"
  | f32 => "f32"
  | f64 => "f64"

end Scalar

/-- One exported function under its type; `exportName` is the name to call it by. -/
structure Method where
  name : String
  exportName : String
  params : List String
  paramTypes : List Scalar
  results : List Scalar
  deriving DecidableEq, Inhabited

namespace Method

/-- A method whose first parameter is `self` takes an instance. -/
def isStatic (m : Method) : Bool := m.params.head? != some "self"

/-- Has the method exactly a sender and its arguments, both able to carry a handle? -/
def isEventHandler (m : Method) : Bool :=
  (match m.params with
    | [sender, args] => sender == "sender" && (args == "e" || args == "args")
    | _ => false) &&
  m.paramTypes.length == 2 && m.paramTypes.all Scalar.isInteger

def hasSignature (m : Method) (params results : List Scalar) : Bool :=
  m.paramTypes == params && m.results == results

end Method

structure TypeShape where
  name : String
  methods : List Method
  deriving DecidableEq, Inhabited

namespace TypeShape

/-- The first method of a name. -/
def method? (t : TypeShape) (name : String) : Option Method :=
  t.methods.find? fun m => m.name = name

/-- The method that runs the command. -/
def entry? (t : TypeShape) : Option Method :=
  (t.method? "execute").filter fun m => m.hasSignature [.i32] [.i32]

/-- The method that makes an instance. -/
def constructor? (t : TypeShape) : Option Method :=
  (t.method? "new").filter fun m => m.hasSignature [] [.i32]

def isCommand (t : TypeShape) : Bool := t.entry?.isSome

end TypeShape

/-- A type that could be shown, or the reason why not. -/
inductive Slot where
  | loaded (type : TypeShape)
  | failed (name reason : String)
  deriving DecidableEq, Inhabited

def Slot.name : Slot → String
  | .loaded type => type.name
  | .failed name _ => name

structure ModuleShape where
  name : String
  slots : List Slot
  deriving DecidableEq, Inhabited

namespace ModuleShape

/-- The types that could be shown, in order. -/
def types (m : ModuleShape) : List TypeShape :=
  m.slots.filterMap fun
    | .loaded type => some type
    | .failed _ _ => none

/-- The types that could not, with the reasons. -/
def failures (m : ModuleShape) : List (String × String) :=
  m.slots.filterMap fun
    | .loaded _ => none
    | .failed name reason => some (name, reason)

/-- The first command; if a name is required, of that name. -/
def findCommand? (m : ModuleShape) (required : Option String) : Option TypeShape :=
  (m.types.filter fun t => required.all (t.name = ·)).find? TypeShape.isCommand

/-- The first event handler, with its type. -/
def findEventHandler? (m : ModuleShape) : Option (TypeShape × Method) :=
  m.types.findSome? fun t => (t.methods.find? Method.isEventHandler).map (t, ·)

end ModuleShape

/-! ## Grouping exports -/

/-- The type and method that an export name stands for: what is before and after its last
dot if neither is empty, else the module itself and the whole name. -/
def splitExport (exportName moduleName : String) : String × String :=
  let cs := exportName.toList
  let after := (cs.reverse.takeWhile (· ≠ '.')).reverse
  let before := cs.take (cs.length - after.length - 1)
  if after.length < cs.length ∧ after ≠ [] ∧ before ≠ [] then
    (String.ofList before, String.ofList after)
  else (moduleName, exportName)

/-- Adds what one export gives to the slot of its type, which is made if it is the first. A
slot that has failed stays as it is; a reason makes it fail. -/
def addToSlot (typeName : String) (found : Except String Method) : List Slot → List Slot
  | [] =>
    match found with
    | .ok m => [.loaded ⟨typeName, [m]⟩]
    | .error reason => [.failed typeName reason]
  | slot :: rest =>
    if slot.name = typeName then
      match slot, found with
      | .failed name reason, _ => .failed name reason :: rest
      | .loaded type, .ok m => .loaded { type with methods := type.methods ++ [m] } :: rest
      | .loaded type, .error reason => .failed type.name reason :: rest
    else slot :: addToSlot typeName found rest

end ScriptHost

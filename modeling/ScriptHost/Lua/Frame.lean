import ScriptHost.Lua.Native

/-!
# Frames

The stack of calls, and what a step of a script says about the call that it makes.
-/

namespace ScriptHost.Lua

/-- What stands on the stack of calls: a call of a script, a library function that waits for
the results of a call, one that also catches errors, or a handler that looks at an error. -/
inductive Waiting where
  | script (a : Activation)
  | native (f : Builtin) (next : Store → List Value → Native)
  | attempt (f : Builtin) (handler : Option Value)
      (next : Store → Except Value (List Value) → Native)
  | handling

/-- A frame, with the number of frames below it and the number of those that were not called
by a script itself. -/
structure Frame where
  waiting : Waiting
  depth : Nat
  nesting : Nat

namespace Activation

/-- The step that the call is in. -/
def current? (a : Activation) : Option Step := a.prototype.code[a.pc - 1]?

def line (a : Activation) : Nat := (a.current?.map Step.line).getD 0

/-- The place of the call, as messages begin with it. -/
def place (a : Activation) : Bytes :=
  a.prototype.chunk ++ ":" ++ Bytes.ofString (toString a.line) ++ ": "

def push (a : Activation) (v : Value) : Activation := { a with stack := v :: a.stack }

/-- Pushes a method under the object that it is called on. -/
def pushUnder (a : Activation) (f : Value) : Activation :=
  match a.stack with
  | object :: stack => { a with stack := object :: f :: stack }
  | [] => a

def cellOf (a : Activation) (slot : Nat) : Nat := a.slots.getD slot 0

/-- Jumps from the step after the current one. -/
def jump (a : Activation) (offset : Int) : Activation :=
  { a with pc := ((a.pc : Int) + offset).toNat }

/-- Pushes as many of the values as are wanted, or lays all aside. -/
def accept (a : Activation) (values : List Value) : Option Nat → Activation
  | none => { a with many := values }
  | some n =>
    let taken := values.take n ++ List.replicate (n - values.length) .nil
    { a with stack := taken.reverse ++ a.stack }

/-- The topmost values in the order in which they were pushed, with those that were laid aside
where `spread`, and the call without them. -/
def takeArguments (a : Activation) (count : Nat) (spread : Bool) : List Value × Activation :=
  let values := (a.stack.take count).reverse
  (if spread then values ++ a.many else values, { a with stack := a.stack.drop count, many := [] })

end Activation

/-- The name under which the current step of a script calls something. -/
def Step.calleeName? (s : Step) : Option Origin :=
  let event (name : String) : Option Origin := some ⟨"metamethod", Bytes.ofString name⟩
  match s.instr with
  | .call _ _ _ callee | .tailCall _ _ callee => callee
  | .eachCall _ _ => some ⟨"for iterator", "for iterator"⟩
  | .index _ | .method _ _ => event "index"
  | .setIndex _ _ => event "newindex"
  | .arithmetic op _ _ => event op.name
  | .concat _ _ => event "concat"
  | .length _ => event "len"
  | .compare .eq | .compare .ne => event "eq"
  | .compare .lt | .compare .gt => event "lt"
  | .compare .le | .compare .ge => event "le"
  | .leave _ _ | .close _ | .leap _ _ => event "close"
  | _ => none

/-- Is the step a call at the end of a call? -/
def Step.isTailCall (s : Step) : Bool :=
  match s.instr with
  | .tailCall _ _ _ => true
  | _ => false

namespace Frame

def script? (f : Frame) : Option Activation :=
  match f.waiting with
  | .script a => some a
  | _ => none

/-- The place of a frame; nothing if it is not of a script. -/
def place (f : Frame) : Bytes := (f.script?.map Activation.place).getD []

/-- The name under which the topmost of frames calls something. -/
def calleeName? (frames : List Frame) : Option Origin :=
  (frames.head?.bind script?).bind fun a => a.current?.bind Step.calleeName?

/-- Does the frame call by a step for calls, and not by an event? -/
def callsPlainly (f : Frame) : Bool :=
  match f.script?.bind Activation.current? with
  | some step =>
    match step.instr with
    | .call _ _ _ _ | .tailCall _ _ _ | .eachCall _ _ => true
    | _ => false
  | none => false

end Frame

end ScriptHost.Lua

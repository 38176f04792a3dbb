import ScriptHost.Wasm.Store

/-!
# Running code

A machine runs the code of functions step by step. A frame holds one call: what is left to
do, the stack, and the blocks that are open. All that a run can do to the store is what
one step can do.
-/

namespace ScriptHost.Wasm

/-- An open block. A jump to it takes the topmost `arity` values along and goes on with
`target`; at its end all values stay and `after` follows. `below` is the stack under it. -/
structure Label where
  arity : Nat
  target : List Instr
  after : List Instr
  below : List Value
  deriving Inhabited

/-- One call of the code of a function; `owner` is the instance that the code is of. -/
structure Frame where
  owner : Nat
  locals : Array Value
  arity : Nat
  labels : List Label := []
  code : List Instr
  stack : List Value := []
  deriving Inhabited

/-- The running call comes first; `depth` counts the calls. -/
structure Machine where
  store : Store
  frames : List Frame
  depth : Nat
  deriving Inhabited

/-- What an instruction leads to besides what it does to its frame and the store. -/
inductive Transfer where
  | advance
  | jump (label : Nat)
  | leave
  | call (address : Nat)

/-- The greatest number of calls inside each other. -/
def Machine.maxDepth : Nat := 12000

namespace Frame

def push (f : Frame) (v : Value) : Frame := { f with stack := v :: f.stack }

/-- The frame after a jump: `n` blocks inside the target are closed. -/
def jump? (f : Frame) (n : Nat) : Option Frame :=
  match f.labels.drop n with
  | [] => none
  | l :: rest =>
    some { f with labels := rest, code := l.target, stack := f.stack.take l.arity ++ l.below }

end Frame

/-- Reads the value that a load finds in its bytes. -/
def Access.decode (a : Access) (bytes : List UInt8) : Value :=
  let n := bytes.foldr (fun b acc => b.toNat + 256 * acc) 0
  if a.signed then
    let width := if a.type = .i32 then 32 else 64
    .ofBits a.type (ofSigned width (toSigned (8 * a.bytes) n))
  else .ofBits a.type n

/-- The bytes that a store writes. -/
def Access.encode (a : Access) (v : Value) : List UInt8 :=
  (List.range a.bytes).map fun i => (v.bits / Nat.pow 256 i).toUInt8

/-- The trap of an access outside of a memory. The place is known only where the access was
not known to fail before the memory was touched. -/
def Access.fault (a : Access) (arg : MemArg) (declared : Option Nat) (memory : Memory)
    (base : Nat) : Trap :=
  let reach := arg.offset + a.bytes
  if reach ≤ (declared.getD 65536) * pageSize ∧ reach ≤ 33554433 then
    .memoryFault (max (base + arg.offset) memory.size) memory.size
  else .memoryOutOfBounds

namespace Store

def memory? (s : Store) (i : Instance) (n : Nat) : Option (Nat × Memory) := do
  let address ← i.memories[n]?
  return (address, ← s.memories[address]?)

def table? (s : Store) (i : Instance) (n : Nat) : Option (Nat × TableInstance) := do
  let address ← i.tables[n]?
  return (address, ← s.tables[address]?)

def setMemory (s : Store) (address : Nat) (m : Memory) : Store :=
  { s with memories := s.memories.setIfInBounds address m }

def setTable (s : Store) (address : Nat) (t : TableInstance) : Store :=
  { s with tables := s.tables.setIfInBounds address t }

/-- The function that an indirect call finds. -/
def indirect (s : Store) (i : Instance) (type table n : Nat) : Except Stop Nat :=
  match s.table? i table, i.module.types[type]? with
  | some (_, t), some expected =>
    match t.items[n]? with
    | none => .error (.trap .tableOutOfBounds)
    | some none => .error (.trap .uninitializedElement)
    | some (some address) =>
      match s.functions[address]? with
      | some f => if f.type = expected then .ok address else .error (.trap .callTypeMismatch)
      | none => .error .stuck
  | _, _ => .error .stuck

end Store

/-- What one instruction without a body does. -/
abbrev Effect := Except Stop (Store × Frame × Transfer)

namespace Effect

def next (s : Store) (f : Frame) : Effect := .ok (s, f, .advance)

def trap (t : Trap) : Effect := .error (.trap t)

def stuck : Effect := .error .stuck

/-- Goes on with a value, or is stuck without one. -/
def having {α : Type} (a : Option α) (k : α → Effect) : Effect :=
  match a with
  | some a => k a
  | none => stuck

/-- Goes on with a value, or traps without one. -/
def orTrap {α : Type} (t : Trap) (a : Option α) (k : α → Effect) : Effect :=
  match a with
  | some a => k a
  | none => trap t

end Effect

open Effect in
/-- What an instruction on a memory does. -/
def memoryEffect (s : Store) (i : Instance) (f : Frame) (op : Basic) : Effect :=
  match op, f.stack with
  | .load access arg, .i32 base :: rest =>
    having (s.memory? i arg.memory) fun (_, m) =>
      match m.read? (base.toNat + arg.offset) access.bytes with
      | some bytes => next s { f with stack := access.decode bytes :: rest }
      | none =>
        trap (access.fault arg ((i.module.allMemories[arg.memory]?).bind Limits.max) m base.toNat)
  | .store access arg, v :: .i32 base :: rest =>
    having (s.memory? i arg.memory) fun (a, m) =>
      match m.write? (base.toNat + arg.offset) (access.encode v) with
      | some m => next (s.setMemory a m) { f with stack := rest }
      | none =>
        trap (access.fault arg ((i.module.allMemories[arg.memory]?).bind Limits.max) m base.toNat)
  | .memorySize n, stack =>
    having (s.memory? i n) fun (_, m) =>
      next s { f with stack := .i32 m.pages.toUInt32 :: stack }
  | .memoryGrow n, .i32 pages :: rest =>
    having (s.memory? i n) fun (a, m) =>
      match m.grow? pages.toNat with
      | some grown => next (s.setMemory a grown) { f with stack := .i32 m.pages.toUInt32 :: rest }
      | none => next s { f with stack := .i32 0xffffffff :: rest }
  | .memoryInit data n, .i32 count :: .i32 source :: .i32 target :: rest =>
    having (s.memory? i n) fun (a, m) =>
      let bytes := i.data.getD data []
      if source.toNat + count.toNat ≤ bytes.length then
        orTrap .memoryOutOfBounds
          (m.write? target.toNat ((bytes.drop source.toNat).take count.toNat)) fun m =>
            next (s.setMemory a m) { f with stack := rest }
      else trap .memoryOutOfBounds
  | .memoryCopy n k, .i32 count :: .i32 source :: .i32 target :: rest =>
    having (s.memory? i n) fun (a, m) => having (s.memory? i k) fun (_, from_) =>
      orTrap .memoryOutOfBounds (from_.read? source.toNat count.toNat) fun bytes =>
        orTrap .memoryOutOfBounds (m.write? target.toNat bytes) fun m =>
          next (s.setMemory a m) { f with stack := rest }
  | .memoryFill n, .i32 count :: .i32 value :: .i32 target :: rest =>
    having (s.memory? i n) fun (a, m) =>
      if target.toNat + count.toNat ≤ m.size then
        next (s.setMemory a (m.put target.toNat (List.replicate count.toNat value.toUInt8)))
          { f with stack := rest }
      else trap .memoryOutOfBounds
  | .dataDrop n, _ =>
    let i := { i with data := i.data.setIfInBounds n [] }
    next { s with instances := s.instances.setIfInBounds f.owner i } f
  | _, _ => stuck

open Effect in
/-- What an instruction on a table does. -/
def tableEffect (s : Store) (i : Instance) (f : Frame) (op : Basic) : Effect :=
  match op, f.stack with
  | .tableGet n, .i32 k :: rest =>
    having (s.table? i n) fun (_, t) =>
      orTrap .tableOutOfBounds t.items[k.toNat]? fun item =>
        next s { f with stack := .funcref item :: rest }
  | .tableSet n, .funcref item :: .i32 k :: rest =>
    having (s.table? i n) fun (a, t) =>
      orTrap .tableOutOfBounds (t.write? k.toNat [item]) fun t =>
        next (s.setTable a t) { f with stack := rest }
  | .tableSize n, stack =>
    having (s.table? i n) fun (_, t) =>
      next s { f with stack := .i32 t.items.size.toUInt32 :: stack }
  | .tableGrow n, .i32 count :: .funcref item :: rest =>
    having (s.table? i n) fun (a, t) =>
      match t.grow? count.toNat item with
      | some grown =>
        next (s.setTable a grown) { f with stack := .i32 t.items.size.toUInt32 :: rest }
      | none => next s { f with stack := .i32 0xffffffff :: rest }
  | .tableFill n, .i32 count :: .funcref item :: .i32 start :: rest =>
    having (s.table? i n) fun (a, t) =>
      if start.toNat + count.toNat ≤ t.items.size then
        orTrap .tableOutOfBounds (t.write? start.toNat (List.replicate count.toNat item)) fun t =>
          next (s.setTable a t) { f with stack := rest }
      else trap .tableOutOfBounds
  | .tableInit elements n, .i32 count :: .i32 source :: .i32 target :: rest =>
    having (s.table? i n) fun (a, t) =>
      let items := i.elements.getD elements []
      if source.toNat + count.toNat ≤ items.length then
        orTrap .tableOutOfBounds
          (t.write? target.toNat ((items.drop source.toNat).take count.toNat)) fun t =>
            next (s.setTable a t) { f with stack := rest }
      else trap .tableOutOfBounds
  | .tableCopy n k, .i32 count :: .i32 source :: .i32 target :: rest =>
    having (s.table? i n) fun (a, t) => having (s.table? i k) fun (_, from_) =>
      orTrap .tableOutOfBounds (from_.read? source.toNat count.toNat) fun items =>
        orTrap .tableOutOfBounds (t.write? target.toNat items) fun t =>
          next (s.setTable a t) { f with stack := rest }
  | .elementsDrop n, _ =>
    let i := { i with elements := i.elements.setIfInBounds n [] }
    next { s with instances := s.instances.setIfInBounds f.owner i } f
  | _, _ => stuck

open Effect in
/-- What an instruction without a body does in a frame of the instance. -/
def effect (s : Store) (i : Instance) (f : Frame) (op : Basic) : Effect :=
  match op, f.stack with
  | .unreachable, _ => trap .unreachable
  | .nop, _ => next s f
  | .drop, _ :: rest => next s { f with stack := rest }
  | .select _, .i32 c :: b :: a :: rest =>
    next s { f with stack := (if c = 0 then b else a) :: rest }
  | .br n, _ => .ok (s, f, .jump n)
  | .brIf n, .i32 c :: rest =>
    .ok (s, { f with stack := rest }, if c = 0 then .advance else .jump n)
  | .brTable labels last, .i32 k :: rest =>
    .ok (s, { f with stack := rest }, .jump (labels.getD k.toNat last))
  | .leave, _ => .ok (s, f, .leave)
  | .call n, _ => having i.functions[n]? fun address => .ok (s, f, .call address)
  | .callIndirect type table, .i32 k :: rest =>
    match s.indirect i type table k.toNat with
    | .ok address => .ok (s, { f with stack := rest }, .call address)
    | .error e => .error e
  | .localGet n, _ => having f.locals[n]? fun v => next s (f.push v)
  | .localSet n, v :: rest =>
    next s { f with locals := f.locals.setIfInBounds n v, stack := rest }
  | .localTee n, v :: _ => next s { f with locals := f.locals.setIfInBounds n v }
  | .globalGet n, _ =>
    having (i.globals[n]?.bind (s.globals[·]?)) fun g => next s (f.push g.value)
  | .globalSet n, v :: rest =>
    having i.globals[n]? fun a => having s.globals[a]? fun g =>
      next { s with globals := s.globals.setIfInBounds a { g with value := v } }
        { f with stack := rest }
  | .i32 n, _ => next s (f.push (.i32 n))
  | .i64 n, _ => next s (f.push (.i64 n))
  | .f32 n, _ => next s (f.push (.f32 n))
  | .f64 n, _ => next s (f.push (.f64 n))
  | .refNull, _ => next s (f.push (.funcref none))
  | .refIsNull, .funcref r :: rest =>
    next s { f with stack := Value.ofBool r.isNone :: rest }
  | .refFunc n, _ => having i.functions[n]? fun a => next s (f.push (.funcref (some a)))
  | .numeric op, stack =>
    match op.type.1.length, stack with
    | 1, a :: rest =>
      match op.eval a.bits 0 with
      | .ok v => next s { f with stack := v :: rest }
      | .error t => trap t
    | 2, b :: a :: rest =>
      match op.eval a.bits b.bits with
      | .ok v => next s { f with stack := v :: rest }
      | .error t => trap t
    | _, _ => stuck
  | .tableGet _, _ | .tableSet _, _ | .tableInit _ _, _ | .elementsDrop _, _ | .tableCopy _ _, _
  | .tableGrow _, _ | .tableSize _, _ | .tableFill _, _ => tableEffect s i f op
  | .load _ _, _ | .store _ _, _ | .memorySize _, _ | .memoryGrow _, _ | .memoryInit _ _, _
  | .dataDrop _, _ | .memoryCopy _ _, _ | .memoryFill _, _ => memoryEffect s i f op
  | _, _ => stuck

/-- How a run ends: with the values that are left, or before that. `inCode` says whether a
function of a module was running then. -/
inductive Ended where
  | values (store : Store) (results : List Value)
  | stopped (store : Store) (reason : Stop) (inCode : Bool)

namespace Machine

/-- The frame of a call of code. -/
def frameOf (type : FuncType) (owner : Nat) (code : Code) (args : List Value) : Frame where
  owner := owner
  locals := (args ++ code.locals.flatMap fun (n, t) => List.replicate n (Value.zero t)).toArray
  arity := type.results.length
  code := code.body

/-- Calls a function of the host from an instance. -/
def callHost (s : Store) (caller : Option Nat) (f : HostFunction) (args : List Value) :
    Except Stop (Store × List Value) :=
  let address := caller.bind s.exportedMemory?
  match s.host.call (address.bind (s.memories[·]?)) f args with
  | .error e => .error e
  | .ok (host, memory, results) =>
    let s := { s with host }
    match address, memory with
    | some a, some m => .ok (s.setMemory a m, results)
    | _, _ => .ok (s, results)

/-- Begins a call from a frame: the arguments are on its stack. -/
def call (s : Store) (f : Frame) (rest : List Frame) (depth address : Nat) :
    Except (Store × Stop) Machine :=
  match s.functions[address]? with
  | none => .error (s, .stuck)
  | some target =>
    let n := target.type.params.length
    let args := (f.stack.take n).reverse
    let f := { f with stack := f.stack.drop n }
    match target with
    | .host _ h =>
      match callHost s (some f.owner) h args with
      | .ok (s, results) =>
        .ok { store := s, frames := { f with stack := results.reverse ++ f.stack } :: rest, depth }
      | .error e => .error (s, e)
    | .code type owner code =>
      if depth < maxDepth then
        .ok { store := s, frames := frameOf type owner code args :: f :: rest, depth := depth + 1 }
      else .error (s, .trap .callStackExhausted)

/-- Ends the running call with the topmost values of its stack as results. -/
def leave (s : Store) (f : Frame) (rest : List Frame) (depth : Nat) : Machine ⊕ Ended :=
  let results := f.stack.take f.arity
  match rest with
  | [] => .inr (.values s results.reverse)
  | caller :: rest =>
    .inl { store := s, frames := { caller with stack := results ++ caller.stack } :: rest,
           depth := depth - 1 }

/-- Opens a block: its parameters stay on the stack, all other values lie below. -/
def enter (i : Instance) (f : Frame) (type : BlockType) (body after : List Instr)
    (again : Option Instr) : Option Frame :=
  let found : Option FuncType := match type with
    | .results ts => some ⟨[], ts⟩
    | .index n => i.module.types[n]?
  found.map fun t =>
    let n := t.params.length
    let label : Label := match again with
      | some loop => ⟨n, loop :: after, after, f.stack.drop n⟩
      | none => ⟨t.results.length, after, after, f.stack.drop n⟩
    { f with labels := label :: f.labels, code := body, stack := f.stack.take n }

/-- One step of a machine, or its end. -/
def step (m : Machine) : Machine ⊕ Ended :=
  let stop (s : Store) (e : Stop) : Machine ⊕ Ended := .inr (.stopped s e true)
  match m.frames with
  | [] => .inr (.values m.store [])
  | f :: rest =>
    let continue_ (f : Option Frame) : Machine ⊕ Ended :=
      match f with
      | some f => .inl { m with frames := f :: rest }
      | none => stop m.store .stuck
    match f.code, f.labels with
    | [], [] => leave m.store f rest m.depth
    | [], l :: labels =>
      continue_ (some { f with labels, code := l.after, stack := f.stack ++ l.below })
    | instr :: after, _ =>
      match m.store.instances[f.owner]? with
      | none => stop m.store .stuck
      | some i =>
        match instr with
        | .block type body => continue_ (enter i f type body after none)
        | .loop type body => continue_ (enter i f type body after (some instr))
        | .branch type yes no =>
          match f.stack with
          | .i32 c :: stack =>
            continue_ (enter i { f with stack } type (if c = 0 then no else yes) after none)
          | _ => stop m.store .stuck
        | .basic op =>
          match effect m.store i { f with code := after } op with
          | .error e => stop m.store e
          | .ok (s, f, .advance) => .inl { m with store := s, frames := f :: rest }
          | .ok (s, f, .leave) => leave s f rest m.depth
          | .ok (s, f, .jump n) =>
            if n = f.labels.length then leave s f rest m.depth
            else
              match f.jump? n with
              | some f => .inl { m with store := s, frames := f :: rest }
              | none => stop s .stuck
          | .ok (s, f, .call address) =>
            match call s f rest m.depth address with
            | .ok m => .inl m
            | .error (s, e) => stop s e

/-- Runs a machine for so many steps at most. -/
def run : Nat → Machine → Ended
  | 0, m => .stopped m.store .outOfSteps true
  | fuel + 1, m =>
    match m.step with
    | .inl m => run fuel m
    | .inr ended => ended

/-- The steps that a run may take. -/
def fuel : Nat := 4000000000

end Machine

/-- Calls a function from outside of all modules. -/
def Store.call (s : Store) (address : Nat) (args : List Value) : Ended :=
  match s.functions[address]? with
  | none => .stopped s .stuck false
  | some (.host _ h) =>
    match Machine.callHost s none h args with
    | .ok (s, results) => .values s results
    | .error e => .stopped s e false
  | some (.code type owner code) =>
    Machine.run Machine.fuel
      { store := s, frames := [Machine.frameOf type owner code args], depth := 1 }

end ScriptHost.Wasm

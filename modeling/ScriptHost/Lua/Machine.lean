import ScriptHost.Lua.Library
import ScriptHost.Lua.Traceback

/-!
# Running code

A machine runs one thread at a time, step by step: the calls of scripts on its frames, and
between them what functions of the libraries wait for. All that a run can do to the store is
what one step can do.
-/

namespace ScriptHost.Lua

/-- A thread that waits for one that it has resumed. -/
structure Resumer where
  thread : Nat
  frames : List Frame
  f : Builtin
  next : Store → Except Value (List Value) → Native

/-- What happens next: a step of the topmost script, a call, one in place of a call of a script,
results for the topmost frame, an error that handlers may still see, with the library function
that has raised it, one that only unwinds, or a library function. -/
inductive Control where
  | advance
  | call (f : Value) (args : List Value)
  | callInPlace (f : Value) (args : List Value)
  | deliver (values : List Value)
  | raise (by_ : Option Builtin) (v : Value)
  | unwind (v : Value)
  | native (f : Builtin) (n : Native)

structure Machine where
  store : Store
  frames : List Frame
  resumers : List Resumer := []
  control : Control

/-- How a run ends. -/
inductive Ended where
  | returned (s : Store) (values : List Value)
  | failed (s : Store) (error : Value)
  | outOfSteps (s : Store)

namespace Machine

/-- The greatest number of calls of scripts inside each other. -/
def maxDepth : Nat := 199990

/-- The greatest number of calls inside each other that are not made by scripts themselves. -/
def maxNesting : Nat := 195

/-- How far above that number handlers of errors can go. -/
def maxHandlers : Nat := 215

/-- The text for a fault of a function that the topmost frame has called. -/
def argumentText (frames : List Frame) (f : Option Builtin) (position : Nat) (reason : Bytes) :
    Bytes :=
  let bad (position : Nat) (name : Bytes) : Bytes :=
    "bad argument #" ++ Bytes.ofString (toString position) ++ " to '" ++ name ++ "' (" ++
      reason ++ ")"
  match Frame.calleeName? frames with
  | some ⟨"method", name⟩ =>
    if position = 1 then "calling '" ++ name ++ "' on bad self (" ++ reason ++ ")"
    else bad (position - 1) name
  | some o => bad position o.name
  | none => bad position (Bytes.ofString ((f.bind Library.qualifiedName?).getD "?"))

/-- The value that a fault raises. -/
def faultValue (frames : List Frame) (f : Option Builtin) : Fault → Value
  | .value v => v
  | .message text level =>
    .string ((frames[level - 1]?.map Frame.place).getD [] ++ text)
  | .argument position reason =>
    .string ((frames.head?.map Frame.place).getD [] ++ argumentText frames f position reason)

def depth (frames : List Frame) : Nat := (frames.head?.map Frame.depth).getD 0

def nesting (frames : List Frame) : Nat := (frames.head?.map Frame.nesting).getD 0

/-- A frame on top of others. -/
def pushed (frames : List Frame) (w : Waiting) (nested : Bool) : List Frame :=
  ⟨w, depth frames + 1, nesting frames + (if nested then 1 else 0)⟩ :: frames

/-- The machine that raises a fault of a function or of a step of the topmost script. -/
def fault (m : Machine) (s : Store) (frames : List Frame) (f : Option Builtin) (e : Fault) :
    Machine :=
  { m with store := s, frames, control := .raise f (faultValue frames f e) }

/-! ## Calls -/

/-- Puts values into cells of their own, and the cells behind those that there are. -/
def newCells (s : Store) (cells : Array Nat) : List Value → Store × Array Nat
  | [] => (s, cells)
  | v :: rest =>
    let (s, c) := s.newCell v
    newCells s (cells.push c) rest

/-- The values of the parameters of a function, nil where none is given. -/
def parametersOf (p : Prototype) (args : List Value) : List Value :=
  let given := args.take p.parameters
  given ++ List.replicate (p.parameters - given.length) .nil

/-- The call of a function at its beginning. -/
def entered (address : Nat) (p : Prototype) (slots : Array Nat) (args : List Value)
    (isTail : Bool) : Activation :=
  { closure := address, prototype := p, slots, isTail
    arguments := if p.isVariadic then args.drop p.parameters else [] }

/-- Does a call from the topmost frame go through the host? -/
def isNested (frames : List Frame) : Bool :=
  match frames.head? with
  | some f => !f.callsPlainly
  | none => true

/-- A call of a function of a script; `isTail` where it takes the place of another. -/
def enter (m : Machine) (address : Nat) (args : List Value) (isTail : Bool) : Machine :=
  let s := m.store
  let prototype := (s.closures.getD address default).prototype
  let nested := isNested m.frames
  if maxDepth ≤ depth m.frames then m.fault s m.frames none (.here "stack overflow")
  else if nested ∧ nesting m.frames = maxNesting then
    m.fault s m.frames none (.here "C stack overflow")
  else
    let (s, slots) := newCells s #[] (parametersOf prototype args)
    let a := entered address prototype slots args isTail
    { m with store := s, frames := pushed m.frames (.script a) nested, control := .advance }

/-- The call of a value that is no function: its metatable may have one. -/
def callOther (m : Machine) (f : Value) (args : List Value) : Machine :=
  match m.store.event f "__call" with
  | .nil =>
    m.fault m.store m.frames none (m.store.cannot "call" f (Frame.calleeName? m.frames))
  | h => { m with control := .call h (f :: args) }

/-- A call of any value. -/
def call (m : Machine) (f : Value) (args : List Value) (isTail : Bool) : Machine :=
  match f with
  | .closure address => m.enter address args isTail
  | .builtin b =>
    if nesting m.frames = maxNesting then m.fault m.store m.frames none (.here "C stack overflow")
    else { m with control := .native b (Library.run b m.store args) }
  | f => m.callOther f args

/-- The frames of the calls of a thread, the running one first. -/
def framesOf (calls : List Activation) (nesting : Nat) : List Frame :=
  calls.reverse.foldl (fun frames a => ⟨.script a, depth frames + 1, nesting⟩ :: frames) []

/-- The machine of a thread that runs on, while the function that has resumed it waits. -/
def started (m : Machine) (s : Store) (f : Builtin)
    (next : Store → Except Value (List Value) → Native) (thread : Nat) (frames : List Frame)
    (control : Control) : Machine :=
  { store := { (s.setThread s.current .waiting).setThread thread .running with current := thread }
    frames, resumers := ⟨s.current, m.frames, f, next⟩ :: m.resumers, control }

/-- The machine of the thread that has resumed the running one, which is in another state now. -/
def backTo (s : Store) (r : Resumer) (rest : List Resumer) (thread : Thread)
    (result : Except Value (List Value)) : Machine :=
  let s := (s.setThread s.current thread).setThread r.thread .running
  let s := { s with current := r.thread }
  { store := s, frames := r.frames, resumers := rest, control := .native r.f (r.next s result) }

/-- Stops the running thread, unless a function of the host is in the middle of a call. -/
def yield (m : Machine) (s : Store) (values : List Value) : Machine :=
  match m.resumers with
  | [] => m.fault s m.frames none (.bare "attempt to yield from outside a coroutine")
  | r :: rest =>
    match m.frames.mapM Frame.script? with
    | none => m.fault s m.frames none (.bare "attempt to yield across a C-call boundary")
    | some calls => backTo s r rest (.suspended calls) (.ok values)

/-- Goes on with a library function. -/
def native (m : Machine) (f : Builtin) : Native → Machine
  | .done s values => { m with store := s, control := .deliver values }
  | .fail s e => m.fault s m.frames (some f) e
  | .call s g args next =>
    { m with store := s, frames := pushed m.frames (.native f next) true, control := .call g args }
  | .attempt s g args handler next =>
    { m with store := s, frames := pushed m.frames (.attempt f handler next) true
             control := .call g args }
  | .resume s thread args next =>
    match s.thread thread with
    | .suspended calls =>
      m.started s f next thread (framesOf calls (nesting m.frames + 1)) (.deliver args)
    | .fresh g => m.started s f next thread [] (.call g args)
    | _ => { m with store := s, control := .deliver [] }
  | .yield s values => m.yield s values
  | .canYield s next =>
    let can := !m.resumers.isEmpty && (m.frames.mapM Frame.script?).isSome
    { m with store := s, control := .native f (next can) }

/-! ## Steps of scripts -/

/-- What one step leads to: the call goes on, or something else comes first, or it fails, or
it ends. -/
inductive Effect where
  | next (s : Store) (a : Activation)
  | call (s : Store) (a : Activation) (f : Value) (args : List Value)
  | replace (s : Store) (f : Value) (args : List Value)
  | fail (s : Store) (a : Activation) (e : Fault)
  | leave (s : Store) (values : List Value)

/-- The value of a slot. -/
def slotValue (s : Store) (a : Activation) (slot : Nat) : Value := s.cell (a.cellOf slot)

def setSlot (s : Store) (a : Activation) (slot : Nat) (v : Value) : Store :=
  s.setCell (a.cellOf slot) v

/-- Puts the value of a slot into a cell of its own. -/
def declare (s : Store) (a : Activation) (slot : Nat) (v : Value) : Store × Activation :=
  let (s, c) := s.newCell v
  (s, { a with slots := Store.setAt a.slots slot c })

/-- The effect of an operation on values. -/
def operated (s : Store) (a : Activation) : Operated → Effect
  | .value v => .next s (a.push v)
  | .call f args => .call s a f args
  | .fault e => .fail s a e

/-- The effect of a look-up; `origin` names the object. -/
def found (s : Store) (a : Activation) (origin : Option Origin) (first : Value)
    (push : Activation → Value → Activation) : Store.Found → Effect
  | .value v => .next s (push a v)
  | .call f args => .call s a f args
  | .noFields object =>
    let origin := if object.rawEquals first then origin else none
    .fail s a (s.cannot "index" object origin)
  | .loop => .fail s a (.here "'__index' chain too long; possibly a loop")

/-- The comparison that a step makes, with its operands in their order. -/
def compared (s : Store) (op : Comparison) (x y : Value) : Operated :=
  match op with
  | .eq => s.equal x y
  | .ne =>
    match s.equal x y with
    | .value v => .value (.bool !v.truthy)
    | other => other
  | .lt => s.ordered false x y
  | .le => s.ordered true x y
  | .gt => s.ordered false y x
  | .ge => s.ordered true y x

/-- The last integer of a loop and whether there is any; the limit may be a number out of the
range of integers. -/
def loopLimit (first step : Int64) (limit : Value) : Option (Option Int64) :=
  let within (last : Int64) : Option Int64 :=
    if (if 0 < step then last < first else first < last) then none else some last
  match limit.number? with
  | none => none
  | some (.int n) => some (within n)
  | some (.float x) =>
    match Double.round? (step < 0) x with
    | some n => some (within n)
    | none =>
      if 0.0 < x then some (if step < 0 then none else within Int64.maxValue)
      else some (if 0 < step then none else within Int64.minValue)

def badLoop (s : Store) (what : Bytes) (v : Value) : Fault :=
  .here ("bad 'for' " ++ what ++ " (number expected, got " ++ s.typeName v ++ ")")

/-- Does a loop over floats go on? -/
def floatLoops (x limit step : Float) : Bool := if 0.0 < step then x ≤ limit else limit ≤ x

/-- Goes into a round of a loop over numbers: behind the slots of the loop stands the number. -/
def beginRound (s : Store) (a : Activation) (slot : Nat) (v : Value) (offset : Int) : Effect :=
  let (s, a) := declare s a (slot + 3) v
  .next s (a.jump offset)

/-- Begins a loop over integers: the number of rounds to come takes the place of the limit. -/
def prepareInts (s : Store) (a : Activation) (slot : Nat) (offset : Int) (first step : Int64)
    (limit : Value) : Effect :=
  if step = 0 then .fail s a (.here "'for' step is zero")
  else
    match loopLimit first step limit with
    | none => .fail s a (badLoop s "limit" limit)
    | some none => .next s (a.jump offset)
    | some (some last) =>
      let rounds : Nat := if 0 < step then ((last.toInt - first.toInt) / step.toInt).toNat
        else ((first.toInt - last.toInt) / -step.toInt).toNat
      beginRound (setSlot s a (slot + 1) (.int (.ofNat rounds))) a slot (.int first) 0

/-- Begins a loop over floats. -/
def prepareFloats (s : Store) (a : Activation) (slot : Nat) (offset : Int)
    (first limit step : Float) : Effect :=
  if step == 0.0 then .fail s a (.here "'for' step is zero")
  else if floatLoops first limit step then
    let s := setSlot s a slot (.float first)
    let s := setSlot s a (slot + 1) (.float limit)
    let s := setSlot s a (slot + 2) (.float step)
    beginRound s a slot (.float first) 0
  else .next s (a.jump offset)

/-- Begins a loop whose numbers are not both integers, unless one is no number at all. -/
def prepareOthers (s : Store) (a : Activation) (slot : Nat) (offset : Int)
    (first limit step : Value) : Effect :=
  match limit.number?, step.number?, first.number? with
  | none, _, _ => .fail s a (badLoop s "limit" limit)
  | _, none, _ => .fail s a (badLoop s "step" step)
  | _, _, none => .fail s a (badLoop s "initial value" first)
  | some limit, some step, some first =>
    prepareFloats s a slot offset first.toFloat limit.toFloat step.toFloat

/-- Begins a loop over numbers: the slots hold the first number, the limit and the step. -/
def forPrepare (s : Store) (a : Activation) (slot : Nat) (offset : Int)
    (first limit step : Value) : Effect :=
  match first, step with
  | .number (.int first), .number (.int step) => prepareInts s a slot offset first step limit
  | first, step => prepareOthers s a slot offset first limit step

/-- Goes into the next round of a loop over integers, if there is one. -/
def nextInt (s : Store) (a : Activation) (slot : Nat) (offset : Int) (n rounds step : Int64) :
    Effect :=
  if rounds = 0 then .next s a
  else
    let s := setSlot s a (slot + 1) (.int (rounds - 1))
    beginRound (setSlot s a slot (.int (n + step))) a slot (.int (n + step)) offset

/-- Goes into the next round of a loop over floats, if there is one. -/
def nextFloat (s : Store) (a : Activation) (slot : Nat) (offset : Int) (x limit step : Float) :
    Effect :=
  if floatLoops (x + step) limit step then
    beginRound (setSlot s a slot (.float (x + step))) a slot (.float (x + step)) offset
  else .next s a

/-- Goes into the next round of a loop over numbers, if there is one. -/
def forNext (s : Store) (a : Activation) (slot : Nat) (offset : Int) (x limit step : Value) :
    Effect :=
  match x, limit, step with
  | .number (.int n), .number (.int rounds), .number (.int step) =>
    nextInt s a slot offset n rounds step
  | .number (.float x), .number (.float limit), .number (.float step) =>
    nextFloat s a slot offset x limit step
  | _, _, _ => .next s a

/-- Closes the value of the latest guarded slot at a level or above, if there is one. -/
def closing? (s : Store) (a : Activation) (level : Nat) : Option Effect :=
  match a.guarded with
  | slot :: rest =>
    if level ≤ slot then
      let v := slotValue s a slot
      some (.call s { a with guarded := rest } (s.event v "__close") [v, .nil])
    else none
  | [] => none

/-- The effect of an assignment to an item of an object; `origin` names the object. -/
def assigned (s : Store) (a : Activation) (origin : Option Origin) (object key v : Value) :
    Store.Assigned → Effect
  | .into t => .next (s.modifyTable t (·.set key v)) a
  | .call f args => .call s a f args
  | .noFields other =>
    .fail s a (s.cannot "index" other (if other.rawEquals object then origin else none))
  | .badKey reason => .fail s a (.here (Bytes.ofString reason))
  | .loop => .fail s a (.here "'__newindex' chain too long; possibly a loop")

/-- Sets an item of the object that stands below, under the key above it. -/
def setIndex (s : Store) (a : Activation) (origin : Option Origin) (v : Value) :
    List Value → Effect
  | key :: object :: _ => assigned s a origin object key v (s.assign key v Store.maxChain object)
  | _ => .leave s []

/-- Calls the topmost value. -/
def callTop (s : Store) (a : Activation) (args : List Value) : Effect :=
  match a.stack with
  | f :: stack => .call s { a with stack } f args
  | [] => .leave s []

/-- Calls the topmost value at the end of a call, whose place a function of a script takes. -/
def callLast (s : Store) (a : Activation) (args : List Value) : Effect :=
  match a.stack with
  | f@(.closure _) :: _ => .replace s f args
  | f :: stack => .call s { a with stack } f args
  | [] => .leave s []

/-- The cell that a function shares with the call that makes it. -/
def captured (s : Store) (a : Activation) : Capture → Nat
  | .ofLocal slot => a.cellOf slot
  | .ofUpvalue i => (s.closures.getD a.closure default).upvalues.getD i 0

/-- The function that the code inside that of the call stands for. -/
def closureOf (s : Store) (a : Activation) (i : Nat) : Closure :=
  let prototype := (a.prototype.inner[i]?).getD default
  ⟨prototype, (prototype.captures.map (captured s a)).toArray⟩

/-- Sets a field of the table that stands below. -/
def setField (s : Store) (a : Activation) (key v : Value) : List Value → Effect
  | .table t :: _ =>
    match Store.badKey? key with
    | some reason => .fail s a (.here (Bytes.ofString reason))
    | none => .next (s.modifyTable t (·.set key v)) a
  | _ => .leave s []

/-- Puts a value into a table that is being written down. -/
def putItem (t : Table) (v : Value) (i : Nat) : Table :=
  if i = t.items.size + 1 then { t with items := t.items.push v } else t.set (.ofNat i) v

/-- Puts values into the table on top, behind so many that it has. -/
def setItems (s : Store) (a : Activation) (start : Nat) (values : List Value) : Effect :=
  match a.stack with
  | .table t :: _ =>
    .next (s.modifyTable t fun t =>
      (values.zipIdx (start + 1)).foldl (fun t (v, i) => putItem t v i) t) a
  | _ => .leave s []

/-- Puts the values of a round into slots of their own. -/
def declareAll (s : Store) (a : Activation) (values : List Value) (slot : Nat) :
    Store × Activation :=
  (values.zipIdx slot).foldl (fun (s, a) (v, slot) => declare s a slot v) (s, a)

/-- Goes into the next round of a loop over values, or leaves it at nil. -/
def eachTest (s : Store) (a : Activation) (slot : Nat) (offset : Int) : Effect :=
  let first := a.many.headD .nil
  if first.isNil then .next s { a with many := [] }
  else
    let s := setSlot s a (slot + 2) first
    let (s, a) := declareAll s { a with many := [] } a.many (slot + 4)
    .next s (a.jump offset)

/-- Notes that the value of a slot is to be closed, unless it is nil or false. -/
def guardSlot (s : Store) (a : Activation) (slot : Nat) (name : Bytes) : Effect :=
  let v := slotValue s a slot
  if !v.truthy then .next s a
  else if (s.event v "__close").isNil then
    .fail s a (.here ("variable '" ++ name ++ "' got a non-closable value"))
  else .next s { a with guarded := slot :: a.guarded }

/-- What a step does. The call has gone on to the next step already. -/
def effect (s : Store) (a : Activation) (instr : Instr) : Effect :=
  match instr, a.stack with
  | .push c, _ => .next s (a.push c.value)
  | .varargs want, _ => .next s (a.accept a.arguments want)
  | .loadLocal slot, _ => .next s (a.push (slotValue s a slot))
  | .storeLocal slot, v :: stack => .next (setSlot s a slot v) { a with stack }
  | .declare slot, v :: stack =>
    let (s, a) := declare s { a with stack } slot v
    .next s a
  | .loadUpvalue i, _ => .next s (a.push (s.cell (captured s a (.ofUpvalue i))))
  | .storeUpvalue i, v :: stack =>
    .next (s.setCell (captured s a (.ofUpvalue i)) v) { a with stack }
  | .index origin, key :: object :: stack =>
    found s { a with stack } origin object Activation.push (s.lookup key Store.maxChain object)
  | .setIndex below origin, v :: stack => setIndex s { a with stack } origin v (stack.drop below)
  | .method name origin, object :: stack =>
    found s { a with stack := object :: stack } origin object Activation.pushUnder
      (s.lookup (.string name) Store.maxChain object)
  | .drop count, stack => .next s { a with stack := stack.drop count }
  | .call count spread _ _, _ =>
    let (args, a) := a.takeArguments count spread
    callTop s a args
  | .tailCall count spread _, _ =>
    let (args, a) := a.takeArguments count spread
    callLast s a args
  | .leave count spread, _ =>
    (closing? s a 0).getD (.leave s (a.takeArguments count spread).1)
  | .jump offset, _ => .next s (a.jump offset)
  | .jumpUnless offset, v :: stack =>
    let a := { a with stack }
    .next s (if v.truthy then a else a.jump offset)
  | .skipUnless offset, v :: stack =>
    .next s (if v.truthy then { a with stack } else a.jump offset)
  | .skipIf offset, v :: stack =>
    .next s (if v.truthy then a.jump offset else { a with stack })
  | .arithmetic .unm left _, x :: stack =>
    operated s { a with stack } (s.arithmetic .unm x x left left)
  | .arithmetic .bnot left _, x :: stack =>
    operated s { a with stack } (s.arithmetic .bnot x x left left)
  | .arithmetic op left right, y :: x :: stack =>
    operated s { a with stack } (s.arithmetic op x y left right)
  | .concat left right, y :: x :: stack => operated s { a with stack } (s.concat x y left right)
  | .compare op, y :: x :: stack => operated s { a with stack } (compared s op x y)
  | .negate, v :: stack => .next s { a with stack := .bool (!v.truthy) :: stack }
  | .length origin, v :: stack => operated s { a with stack } (s.length v origin)
  | .closure i, _ =>
    let (s, f) := s.newClosure (closureOf s a i)
    .next s (a.push f)
  | .newTable, _ =>
    let (s, t) := s.newTable {}
    .next s (a.push t)
  | .setField below, v :: key :: stack => setField s { a with stack } key v (stack.drop below)
  | .setItems start count spread, _ =>
    let (values, a) := a.takeArguments count spread
    setItems s a start values
  | .forPrepare slot offset, _ =>
    forPrepare s a slot offset (slotValue s a slot) (slotValue s a (slot + 1))
      (slotValue s a (slot + 2))
  | .forNext slot offset, _ =>
    forNext s a slot offset (slotValue s a slot) (slotValue s a (slot + 1))
      (slotValue s a (slot + 2))
  | .eachCall slot _, _ =>
    .call s a (slotValue s a slot) [slotValue s a (slot + 1), slotValue s a (slot + 2)]
  | .eachTest slot offset, _ => eachTest s a slot offset
  | .guard slot name, _ => guardSlot s a slot name
  | .close level, _ => (closing? s a level).getD (.next s a)
  | .leap level offset, _ => (closing? s a level).getD (.next s (a.jump offset))
  | .label _, _ => .next s a
  | .goto _, _ => .next s a
  | _, _ => .leave s []

/-- How the call of a script goes on with the results of what its current step has called. -/
def receive (a : Activation) (values : List Value) (instr : Instr) : Activation :=
  let first := values.headD .nil
  match instr with
  | .call _ _ want _ => a.accept values want
  | .index _ => a.push first
  | .method _ _ => a.pushUnder first
  | .arithmetic _ _ _ | .concat _ _ | .length _ => a.push first
  | .compare .ne => a.push (.bool !first.truthy)
  | .compare _ => a.push (.bool first.truthy)
  | .eachCall _ count =>
    { a with many := values.take count ++ List.replicate (count - values.length) .nil }
  | .leave _ _ | .close _ | .leap _ _ => { a with pc := a.pc - 1 }
  | _ => a

/-! ## Steps of the machine -/

/-- The machine that an effect leads to, with the frame of the script on top of the others. -/
def afterStep (back : Activation → List Frame) (rest : List Frame) (resumers : List Resumer) :
    Effect → Machine
  | .next s a => ⟨s, back a, resumers, .advance⟩
  | .call s a g args => ⟨s, back a, resumers, .call g args⟩
  | .replace s g args => ⟨s, rest, resumers, .callInPlace g args⟩
  | .fail s a e => ⟨s, back a, resumers, .raise none (faultValue (back a) none e)⟩
  | .leave s values => ⟨s, rest, resumers, .deliver values⟩

/-- One step of the topmost script. -/
def advance (s : Store) (depth nesting : Nat) (a : Activation) (rest : List Frame)
    (resumers : List Resumer) : Machine :=
  match a.prototype.code[a.pc]? with
  | none => ⟨s, rest, resumers, .deliver []⟩
  | some step =>
    afterStep (fun a => ⟨.script a, depth, nesting⟩ :: rest) rest resumers
      (effect s { a with pc := a.pc + 1 } step.instr)

/-- The error that a thread dies of. -/
def errorOf : Except Value (List Value) → Option Value
  | .ok _ => none
  | .error e => some e

/-- The end of the running thread: the one that has resumed it goes on. -/
def finishThread (m : Machine) (r : Resumer) (rest : List Resumer)
    (result : Except Value (List Value)) : Machine :=
  backTo m.store r rest (.dead (errorOf result)) result

/-- Brings results to the call of a script that is in a frame. An error that has waited until
something was closed is passed on, and a call at the end of a call passes results on. -/
def deliverScript (m : Machine) (f : Frame) (a : Activation) (rest : List Frame)
    (values : List Value) : Machine :=
  match a.raising with
  | some e => { m with control := .unwind e }
  | none =>
    match a.current? with
    | some step =>
      if step.isTailCall then { m with frames := rest, control := .deliver values }
      else
        { m with
          frames := { f with waiting := .script (receive a values step.instr) } :: rest
          control := .advance }
    | none => { m with control := .advance }

/-- Brings results to a frame. -/
def deliverTo (m : Machine) (f : Frame) (rest : List Frame) (values : List Value) : Machine :=
  match f.waiting with
  | .script a => m.deliverScript f a rest values
  | .native g next => { m with frames := rest, control := .native g (next m.store values) }
  | .attempt g _ next =>
    { m with frames := rest, control := .native g (next m.store (.ok values)) }
  | .handling => { m with frames := rest, control := .unwind (values.headD .nil) }

/-- Brings results to the topmost frame. -/
def deliver (m : Machine) (values : List Value) : Machine ⊕ Ended :=
  match m.frames with
  | [] =>
    match m.resumers with
    | [] => .inr (.returned m.store values)
    | r :: rest => .inl (m.finishThread r rest (.ok values))
  | f :: rest => .inl (m.deliverTo f rest values)

/-- The handler that sees errors of the topmost frames. -/
def handler? : List Frame → Option Value
  | [] => none
  | f :: rest =>
    match f.waiting with
    | .attempt _ handler _ => handler
    | _ => handler? rest

/-- Notes where an error of the main thread comes from, before anything is unwound: with the
failure if it is one of the host, and in the store if scripts do not catch it. -/
def traced (m : Machine) (f : Option Builtin) (v : Value) : Store :=
  match v with
  | .failure a =>
    m.store.noteOrigin a (Traceback.text (Traceback.levels m.store f m.frames))
  | _ =>
    if m.resumers.isEmpty ∧ !Traceback.isCaught m.frames then
      { m.store with
        traceback := Traceback.text (.ofHandler :: Traceback.levels m.store f m.frames) }
    else m.store

/-- Raises an error: a handler sees it before anything is unwound. -/
def raise (m : Machine) (f : Option Builtin) (v : Value) : Machine :=
  match handler? m.frames with
  | none => { m with store := m.traced f v, control := .unwind v }
  | some h =>
    if maxHandlers ≤ nesting m.frames then
      { m with control := .unwind (.string "error in error handling") }
    else { m with frames := pushed m.frames .handling true, control := .call h [v] }

/-- Takes a frame away, unless it catches the error. A script first closes what it has left
open. -/
def unwindFrom (m : Machine) (f : Frame) (rest : List Frame) (v : Value) : Machine :=
  match f.waiting with
  | .attempt g _ next =>
    { m with frames := rest, control := .native g (next m.store (.error v)) }
  | .script a =>
    match a.guarded with
    | slot :: guarded =>
      let x := slotValue m.store a slot
      { m with
        frames := { f with waiting := .script { a with guarded, raising := some v } } :: rest
        control := .call (m.store.event x "__close") [x, v] }
    | [] => { m with frames := rest, control := .unwind v }
  | _ => { m with frames := rest, control := .unwind v }

/-- Takes the topmost frame away, up to one that catches the error. -/
def unwind (m : Machine) (v : Value) : Machine ⊕ Ended :=
  match m.frames with
  | [] =>
    match m.resumers with
    | [] => .inr (.failed m.store v)
    | r :: rest => .inl (m.finishThread r rest (.error v))
  | f :: rest => .inl (m.unwindFrom f rest v)

/-- One step of a machine, or its end. -/
def step : Machine → Machine ⊕ Ended
  | ⟨s, frames, resumers, control⟩ =>
    match control with
    | .advance =>
      match frames with
      | ⟨.script a, depth, nesting⟩ :: rest =>
        .inl (advance s depth nesting a rest resumers)
      | frames => .inl ⟨s, frames, resumers, .deliver []⟩
    | .call f args => .inl (call ⟨s, frames, resumers, .advance⟩ f args false)
    | .callInPlace f args => .inl (call ⟨s, frames, resumers, .advance⟩ f args true)
    | .deliver values => deliver ⟨s, frames, resumers, .advance⟩ values
    | .raise f v => .inl (raise ⟨s, frames, resumers, .advance⟩ f v)
    | .unwind v => unwind ⟨s, frames, resumers, .advance⟩ v
    | .native f n => .inl (native ⟨s, frames, resumers, .advance⟩ f n)

/-- Runs a machine for so many steps at most. -/
def run : Nat → Machine → Ended
  | 0, m => .outOfSteps m.store
  | fuel + 1, m =>
    match m.step with
    | .inl m => run fuel m
    | .inr ended => ended

/-- The steps that a run may take. -/
def fuel : Nat := 4000000000

end Machine

/-- Calls a function from outside of all scripts. -/
def Store.call (s : Store) (f : Value) (args : List Value) : Ended :=
  Machine.run Machine.fuel { store := s, frames := [], control := .call f args }

end ScriptHost.Lua

import ScriptHost.Lua.Native

/-!
# The coroutine library
-/

namespace ScriptHost.Lua.Threads

def create : Plain := fun s args => do
  let f ← Args.function s args 1
  let (s, a) := s.newThread (.fresh f)
  return (s, [.thread a])

def wrap : Plain := fun s args => do
  let f ← Args.function s args 1
  let (s, a) := s.newThread (.fresh f)
  return (s, [.builtin (.wrapped a)])

/-- Runs a thread on, if it can be. -/
def resumeWith (s : Store) (thread : Nat) (args : Args)
    (next : Store → Except Value (List Value) → Native) : Native :=
  match s.thread thread with
  | .fresh _ | .suspended _ => .resume s thread args next
  | .running | .waiting => next s (.error (.string "cannot resume non-suspended coroutine"))
  | .dead _ => next s (.error (.string "cannot resume dead coroutine"))

def resume (s : Store) (args : Args) : Native :=
  .reading s (Args.thread s args 1) fun thread =>
    resumeWith s thread (args.drop 1) fun s result =>
      .done s (match result with
        | .ok vs => .bool true :: vs
        | .error e => [.bool false, e])

/-- The function that `wrap` makes of a thread: an error goes on to the caller, a text with
its place. -/
def wrapped (thread : Nat) (s : Store) (args : Args) : Native :=
  resumeWith s thread args fun s result =>
    match result with
    | .ok vs => .done s vs
    | .error (.string text) => .fail s (.here text)
    | .error e => .fail s (.value e)

def status : Plain := fun s args => do
  let thread ← Args.thread s args 1
  let name := match s.thread thread with
    | .fresh _ | .suspended _ => "suspended"
    | .running => "running"
    | .waiting => "normal"
    | .dead _ => "dead"
  return (s, [.string (Bytes.ofString name)])

/-- Closes the values that the calls of a thread have left open, with the error so far. -/
def closeAll : List (Value × Value) → Option Value → Store →
    (Store → Option Value → Native) → Native
  | [], error, s, next => next s error
  | (method, v) :: rest, error, s, next =>
    .attempt s method [v, error.getD .nil] none fun s result =>
      match result with
      | .ok _ => closeAll rest error s next
      | .error e => closeAll rest (some e) s next

/-- The values that a call closes when it ends, with the methods that do it. -/
def guarded (s : Store) (a : Activation) : List (Value × Value) :=
  a.guarded.map fun slot =>
    let v := s.cell (a.slots.getD slot 0)
    (s.event v "__close", v)

/-- Ends a thread that has nothing left to close; an error is only told once. -/
def finishClose (thread : Nat) (s : Store) (error : Option Value) : Native :=
  .done (s.setThread thread (.dead none)) (match error with
    | none => [.bool true]
    | some e => [.bool false, e])

def close (s : Store) (args : Args) : Native :=
  .reading s (Args.thread s args 1) fun thread =>
    match s.thread thread with
    | .fresh _ => finishClose thread s none
    | .suspended calls =>
      closeAll (calls.flatMap (guarded s)) none (s.setThread thread (.dead none))
        (finishClose thread)
    | .dead error => finishClose thread s error
    | .running => .fail s (.here "cannot close a running coroutine")
    | .waiting => .fail s (.here "cannot close a normal coroutine")

def run (f : CoroutineFunction) (s : Store) (args : Args) : Native :=
  match f with
  | .close => close s args
  | .create => .ofPlain create s args
  | .isyieldable => .canYield s fun can => .done s [.bool can]
  | .resume => resume s args
  | .running => .done s [.thread s.current, .bool (s.current == Store.mainThread)]
  | .status => .ofPlain status s args
  | .wrap => .ofPlain wrap s args
  | .yield => .yield s args

end ScriptHost.Lua.Threads

import ScriptHost.Lua.Store
import ScriptHost.Text.Digit
import ScriptHost.Text.Quoted

/-!
# Functions of the libraries

What a function that is not a script's does: it ends with results or a fault, or it calls
back into the script and goes on with what comes of that.
-/

namespace ScriptHost.Lua

/-- Why such a function fails: an argument is refused, or there is a message with the place of
the caller so many levels up, or a value is raised as it is. -/
inductive Fault where
  | argument (position : Nat) (reason : Bytes)
  | message (text : Bytes) (level : Nat)
  | value (v : Value)

namespace Fault

/-- A message with the place of the caller. -/
def here (text : Bytes) : Fault := .message text 1

/-- A message without a place. -/
def bare (text : Bytes) : Fault := .value (.string text)

end Fault

/-- A computation of a library. `attempt` catches what is raised, and lets a handler see it
first; `resume` runs a thread until it yields or ends. -/
inductive Native where
  | done (s : Store) (results : List Value)
  | fail (s : Store) (fault : Fault)
  | call (s : Store) (f : Value) (args : List Value) (next : Store → List Value → Native)
  | attempt (s : Store) (f : Value) (args : List Value) (handler : Option Value)
      (next : Store → Except Value (List Value) → Native)
  | resume (s : Store) (thread : Nat) (args : List Value)
      (next : Store → Except Value (List Value) → Native)
  | yield (s : Store) (values : List Value)
  | canYield (s : Store) (next : Bool → Native)

abbrev Args := List Value

/-- A function that needs nothing but the store. -/
abbrev Plain := Store → Args → Except Fault (Store × List Value)

namespace Native

instance : Inhabited Native := ⟨.done {} []⟩

/-- The end of a computation that only reads the store. -/
def ofExcept (s : Store) : Except Fault (List Value) → Native
  | .ok vs => .done s vs
  | .error e => .fail s e

def ofPlain (f : Plain) (s : Store) (args : Args) : Native :=
  match f s args with
  | .ok (s, vs) => .done s vs
  | .error e => .fail s e

/-- Goes on with what can be read of the arguments. -/
def reading {α : Type} (s : Store) (a : Except Fault α) (next : α → Native) : Native :=
  match a with
  | .ok a => next a
  | .error e => .fail s e

end Native

/-! ## Arguments -/

namespace Args

variable (s : Store) (args : Args) (i : Nat)

def get? : Option Value := args[i - 1]?

def value : Value := (get? args i).getD .nil

/-- The name of the type of an argument in messages. -/
def typeName : Bytes :=
  match get? args i with
  | none => "no value"
  | some .null => "light userdata"
  | some v => s.typeName v

def refuse {α : Type} (reason : Bytes) : Except Fault α := .error (.argument i reason)

def wrongType {α : Type} (expected : Bytes) : Except Fault α :=
  refuse i (expected ++ " expected, got " ++ typeName s args i)

def any : Except Fault Value :=
  match get? args i with
  | some v => .ok v
  | none => refuse i "value expected"

def isNone : Bool := (get? args i).isNone

def isNoneOrNil : Bool := (value args i).isNil

def table : Except Fault Nat :=
  match value args i with
  | .table a => .ok a
  | _ => wrongType s args i "table"

def function : Except Fault Value :=
  match value args i with
  | f@(.closure _) | f@(.builtin _) => .ok f
  | _ => wrongType s args i "function"

def thread : Except Fault Nat :=
  match value args i with
  | .thread a => .ok a
  | _ => wrongType s args i "coroutine"

def number : Except Fault Number :=
  match (value args i).number? with
  | some n => .ok n
  | none => wrongType s args i "number"

def int : Except Fault Int64 :=
  match (value args i).number? with
  | some n =>
    match n.toInt? with
    | some k => .ok k
    | none => refuse i "number has no integer representation"
  | none => wrongType s args i "number"

def float : Except Fault Float := (number s args i).map Number.toFloat

def text : Except Fault Bytes :=
  match (value args i).text? with
  | some t => .ok t
  | none => wrongType s args i "string"

def intOr (default : Int64) : Except Fault Int64 :=
  if isNoneOrNil args i then .ok default else int s args i

def textOr (default : Bytes) : Except Fault Bytes :=
  if isNoneOrNil args i then .ok default else text s args i

end Args

/-! ## Text of values -/

/-- A place in memory as it is shown. -/
def addressText (place : Nat) : Bytes := Bytes.ofString ("0x" ++ Text.hexPadded 14 place)

/-- What went wrong in a function that the host adds. -/
def Cause.message : Cause → Bytes
  | .raised message => "runtime error: " ++ message
  | .conversion source target expected =>
    Bytes.ofString ("error converting Lua " ++ source ++ " to " ++ target ++
      match expected with
      | some what => " (expected " ++ what ++ ")"
      | none => "")

/-- The cause as the host shows it to itself. -/
def Cause.describe : Cause → String
  | .raised message => "RuntimeError(" ++ Text.Quoted.quote (Bytes.toText message) ++ ")"
  | .conversion source target expected =>
    "FromLuaConversionError \x7b from: " ++ Text.Quoted.quote source ++ ", to: " ++
      Text.Quoted.quote target ++ ", message: " ++
      (match expected with
        | some what => "Some(" ++ Text.Quoted.quote ("expected " ++ what) ++ ")"
        | none => "None") ++ " \x7d"

/-- The text of a value that does not say itself what its text is. -/
def Store.plainText (s : Store) (v : Value) : Bytes :=
  let shown := s.typeName v ++ ": " ++ addressText (s.layout v)
  match v with
  | .nil => "nil"
  | .bool b => if b then "true" else "false"
  | .number n => n.toText
  | .string t => t
  | .null => "userdata: (nil)"
  | .table _ | .closure _ | .thread _ => shown
  | .builtin _ => "function: builtin: " ++ addressText (s.layout v)
  | .failure a =>
    match s.failures.getD a default with
    | .exit status => "script exited with status " ++ Bytes.ofString (toString status)
    | .inCallback cause traceback => cause.message ++ "\n" ++ traceback ++ "\n"

namespace Native

/-- Goes on with the text of a value, which its metatable may give. -/
def withText (s : Store) (v : Value) (next : Store → Bytes → Native) : Native :=
  match s.event v "__tostring" with
  | .nil => next s (s.plainText v)
  | f =>
    .call s f [v] fun s results =>
      match (results.headD .nil).text? with
      | some t => next s t
      | none => .fail s (.here "'__tostring' must return a string")

/-- Goes on with the value under a key of an object, which its metatable may give. -/
def withItem (s : Store) (object key : Value) (next : Store → Value → Native) : Native :=
  match s.lookup key Store.maxChain object with
  | .value v => next s v
  | .call f args => .call s f args fun s results => next s (results.headD .nil)
  | .noFields object =>
    .fail s (.bare ("attempt to index a " ++ s.typeName object ++ " value"))
  | .loop => .fail s (.bare "'__index' chain too long; possibly a loop")

end Native

end ScriptHost.Lua

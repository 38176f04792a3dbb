import ScriptHost.Lua.Number

/-!
# Values

A value is a plain datum or a reference to something that the store holds. Functions of
the libraries are values by their names.
-/

namespace ScriptHost.Lua

/-- An operation of numbers that values can take over by an event. -/
inductive Arithmetic where
  | add | sub | mul | mod | pow | div | idiv | band | bor | bxor | shl | shr | unm | bnot
  deriving DecidableEq

namespace Arithmetic

def name : Arithmetic → String
  | add => "add"
  | sub => "sub"
  | mul => "mul"
  | mod => "mod"
  | pow => "pow"
  | div => "div"
  | idiv => "idiv"
  | band => "band"
  | bor => "bor"
  | bxor => "bxor"
  | shl => "shl"
  | shr => "shr"
  | unm => "unm"
  | bnot => "bnot"

def isBitwise : Arithmetic → Bool
  | band | bor | bxor | shl | shr | bnot => true
  | _ => false

/-- The operations that strings take over. -/
def ofStrings : List Arithmetic := [add, sub, mul, mod, pow, div, idiv, unm]

end Arithmetic

inductive BaseFunction where
  | assert | collectgarbage | dofile | error | getmetatable | ipairs | load | loadfile | next
  | pairs | pcall | print | rawequal | rawget | rawlen | rawset | require | select
  | setmetatable | tonumber | tostring | type | warn | xpcall
  deriving DecidableEq

inductive StringFunction where
  | byte | char | dump | find | format | gmatch | gsub | len | lower | match_ | pack | packsize
  | rep | reverse | sub | unpack | upper
  deriving DecidableEq

inductive TableFunction where
  | concat | insert | move | pack | remove | sort | unpack
  deriving DecidableEq

inductive MathFunction where
  | abs | acos | asin | atan | ceil | cos | deg | exp | floor | fmod | log | max | min | modf
  | rad | random | randomseed | sin | sqrt | tan | tointeger | type | ult
  deriving DecidableEq

inductive CoroutineFunction where
  | close | create | isyieldable | resume | running | status | wrap | yield
  deriving DecidableEq

inductive Utf8Function where
  | char | codepoint | codes | len | offset
  deriving DecidableEq

inductive SystemFunction where
  | clock | date | difftime | execute | exit | getenv | remove | rename | setlocale | time
  | tmpname
  deriving DecidableEq

inductive FileFunction where
  | close | flush | input | lines | open_ | output | popen | read | tmpfile | type | write
  deriving DecidableEq

/-- A function that is not a script's. The last ones carry what they were made with: the
printer of a run its sink and a number of its own, an iterator over matches its text, its
pattern and the cells of its position and of the last end, a wrapper its thread. -/
inductive Builtin where
  | base (f : BaseFunction)
  | string (f : StringFunction)
  | table (f : TableFunction)
  | math (f : MathFunction)
  | coroutine (f : CoroutineFunction)
  | utf8 (f : Utf8Function)
  | system (f : SystemFunction)
  | file (f : FileFunction)
  | searchpath
  | loadlib
  | stringArithmetic (op : Arithmetic)
  | nextIndex
  | nextCode
  | nextMatch (text pattern : Bytes) (position last : Nat)
  | wrapped (thread : Nat)
  | printer (sink serial : Nat)
  | silent (serial : Nat)
  deriving DecidableEq

/-- `null` is the null of the host. Tables, functions of scripts, threads and failures of
the host stand in the store. -/
inductive Value where
  | nil
  | null
  | bool (b : Bool)
  | number (n : Number)
  | string (s : Bytes)
  | builtin (f : Builtin)
  | table (address : Nat)
  | closure (address : Nat)
  | thread (address : Nat)
  | failure (address : Nat)

namespace Value

instance : Inhabited Value := ⟨.nil⟩

def int (n : Int64) : Value := .number (.int n)
def float (x : Float) : Value := .number (.float x)
def ofNat (n : Nat) : Value := .int (.ofNat n)

/-- Everything but nil and false. -/
def truthy : Value → Bool
  | nil | bool false => false
  | _ => true

def isNil : Value → Bool
  | nil => true
  | _ => false

def typeName : Value → String
  | nil => "nil"
  | null | failure _ => "userdata"
  | bool _ => "boolean"
  | number _ => "number"
  | string _ => "string"
  | builtin _ | closure _ => "function"
  | table _ => "table"
  | thread _ => "thread"

/-- Equality of contents for plain data, of identity for what stands in the store. -/
def rawEquals : Value → Value → Bool
  | nil, nil => true
  | null, null => true
  | bool a, bool b => a == b
  | number a, number b => a.equals b
  | string a, string b => a == b
  | builtin a, builtin b => decide (a = b)
  | table a, table b => a == b
  | closure a, closure b => a == b
  | thread a, thread b => a == b
  | failure a, failure b => a == b
  | _, _ => false

/-- A value as a key: a float that is an integer is that integer. -/
def asKey : Value → Value
  | number n => number n.normal
  | v => v

/-- The text of a string or number. -/
def text? : Value → Option Bytes
  | string s => some s
  | number n => some n.toText
  | _ => none

/-- The number that a number or a numeral is. -/
def number? : Value → Option Number
  | number n => some n
  | string s => Number.ofText? s
  | _ => none

/-- The integer that a number or a numeral is exactly. -/
def int? (v : Value) : Option Int64 := v.number?.bind Number.toInt?

end Value

end ScriptHost.Lua

import ScriptHost.Text.Digit
import ScriptHost.Wasm.Types

/-!
# Values and traps

What stands on the stack of a running module, and why a run stops without a result.
Floats are kept as their bits.
-/

namespace ScriptHost.Wasm

/-- Why a computation stops without a result. -/
inductive Trap where
  | callStackExhausted
  | memoryFault (address size : Nat)
  | memoryOutOfBounds
  | tableOutOfBounds
  | uninitializedElement
  | callTypeMismatch
  | integerOverflow
  | integerDivideByZero
  | invalidConversion
  | unreachable
  deriving DecidableEq, Repr

def Trap.message : Trap → String
  | .callStackExhausted => "wasm trap: call stack exhausted"
  | .memoryFault address size =>
    "memory fault at wasm address 0x" ++ Text.hexDigits address ++
      " in linear memory of size 0x" ++ Text.hexDigits size ++
      ": wasm trap: out of bounds memory access"
  | .memoryOutOfBounds => "wasm trap: out of bounds memory access"
  | .tableOutOfBounds => "wasm trap: undefined element: out of bounds table access"
  | .uninitializedElement => "wasm trap: uninitialized element"
  | .callTypeMismatch => "wasm trap: indirect call type mismatch"
  | .integerOverflow => "wasm trap: integer overflow"
  | .integerDivideByZero => "wasm trap: integer divide by zero"
  | .invalidConversion => "wasm trap: invalid conversion to integer"
  | .unreachable => "wasm trap: wasm \x60unreachable\x60 instruction executed"

/-- A value on the stack; floats are their bits, a reference names a function or nothing. -/
inductive Value where
  | i32 (n : UInt32)
  | i64 (n : UInt64)
  | f32 (bits : UInt32)
  | f64 (bits : UInt64)
  | v128 (bits : Nat)
  | funcref (address : Option Nat)
  deriving DecidableEq, Repr, Inhabited

namespace Value

/-- The value that locals begin with. -/
def zero : ValType → Value
  | .i32 => .i32 0
  | .i64 => .i64 0
  | .f32 => .f32 0
  | .f64 => .f64 0
  | .v128 => .v128 0
  | .funcref => .funcref none

/-- The bits of a number. -/
def bits : Value → Nat
  | .i32 n => n.toNat
  | .i64 n => n.toNat
  | .f32 n => n.toNat
  | .f64 n => n.toNat
  | .v128 n => n
  | .funcref _ => 0

/-- The number of a type with these bits. -/
def ofBits (t : ValType) (n : Nat) : Value :=
  match t with
  | .i32 => .i32 n.toUInt32
  | .i64 => .i64 n.toUInt64
  | .f32 => .f32 n.toUInt32
  | .f64 => .f64 n.toUInt64
  | .v128 => .v128 n
  | .funcref => .funcref none

def ofBool (b : Bool) : Value := .i32 (if b then 1 else 0)

end Value

end ScriptHost.Wasm

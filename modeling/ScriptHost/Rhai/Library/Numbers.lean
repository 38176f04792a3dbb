import ScriptHost.Rhai.Library.Answer

/-!
# Functions of numbers
-/

namespace ScriptHost.Rhai.Numbers

open Answer

/-- A text in a base. -/
def inBase (base : Nat) (n : Int64) : String :=
  String.ofList (Nat.toDigits base n.toUInt64.toNat)

/-- A float as an integer, cut towards zero. -/
def truncated (x : Float) : Option Answered :=
  match Double.toInt64? (if x < 0.0 then x.ceil else x.floor) with
  | some n => give (.int n)
  | none =>
    fail (.arithmetic ("Integer overflow: to_int(" ++ Value.plainFloat x ++ ")"))

/-- A function of an integer, with its other arguments. -/
def ofInt? (n : Int64) (name : String) (args : List Value) : Option Answered :=
  let k := n.toInt
  match name, args with
  | "abs", [] =>
    if k = Int64.minValue.toInt then fail (.arithmetic ("Negation overflow: -" ++ toString k))
    else int k.natAbs
  | "sign", [] => int k.sign
  | "is_zero", [] => bool (k = 0)
  | "is_odd", [] => bool (k % 2 ≠ 0)
  | "is_even", [] => bool (k % 2 = 0)
  | "to_int", [] => int k
  | "to_float", [] => give (.float n.toFloat)
  | "to_binary", [] => text (inBase 2 n)
  | "to_octal", [] => text (inBase 8 n)
  | "to_hex", [] => text (inBase 16 n)
  | "min", [.int m] => give (.int (if m < n then m else n))
  | "max", [.int m] => give (.int (if n < m then m else n))
  | "min", [.float y] => give (.float (if y < n.toFloat then y else n.toFloat))
  | "max", [.float y] => give (.float (if n.toFloat < y then y else n.toFloat))
  | "range", [.int m] => give (.range n m false)
  | _, _ => none

/-- The nearest integer, a half away from zero. -/
def rounded (x : Float) : Float :=
  let down := (Float.abs x).floor
  let r := if (Float.abs x) - down ≥ 0.5 then down + 1.0 else down
  if x < 0.0 then -r else r

/-- A function of a float, with its other arguments. -/
def ofFloat? (x : Float) (name : String) (args : List Value) : Option Answered :=
  match name, args with
  | "abs", [] => give (.float (Float.abs x))
  | "sign", [] => int (if 0.0 < x then 1 else if x < 0.0 then -1 else 0)
  | "is_zero", [] => bool (x == 0.0)
  | "floor", [] => give (.float x.floor)
  | "ceiling", [] => give (.float x.ceil)
  | "round", [] => give (.float (rounded x))
  | "int", [] => give (.float (if x < 0.0 then x.ceil else x.floor))
  | "fraction", [] => give (.float (x - (if x < 0.0 then x.ceil else x.floor)))
  | "sqrt", [] => give (.float x.sqrt)
  | "to_int", [] => truncated x
  | "to_float", [] => give (.float x)
  | "is_nan", [] => bool (x != x)
  | "is_finite", [] => bool (Value.isFinite x)
  | "is_infinite", [] => bool ((x == x) && !Value.isFinite x)
  | "min", [v] => (Operation.floatOf? v).bind fun y => give (.float (if y < x then y else x))
  | "max", [v] => (Operation.floatOf? v).bind fun y => give (.float (if x < y then y else x))
  | _, _ => none

end ScriptHost.Rhai.Numbers

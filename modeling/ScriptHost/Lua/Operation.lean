import ScriptHost.Lua.Native

/-!
# Operations

What operators do with values: on numbers they compute, and where they cannot, the values may
say what happens by the events of their metatables.
-/

namespace ScriptHost.Lua

namespace Arithmetic

/-- The result of an operation on numbers. -/
def compute (op : Arithmetic) (a b : Number) : Except Fault Number :=
  let onFloats (f : Float → Float → Float) : Except Fault Number :=
    .ok (.float (f a.toFloat b.toFloat))
  let onBits (f : Int64 → Int64 → Int64) : Except Fault Number :=
    match a.toInt?, b.toInt? with
    | some x, some y => .ok (.int (f x y))
    | _, _ => .error (.here "number has no integer representation")
  match op with
  | add => both (· + ·) (· + ·)
  | sub => both (· - ·) (· - ·)
  | mul => both (· * ·) (· * ·)
  | div => onFloats (· / ·)
  | pow => onFloats power
  | mod =>
    match a, b with
    | .int _, .int 0 => .error (.here "attempt to perform 'n%%0'")
    | .int x, .int y => .ok (.int (Int64.flooredRemainder x y))
    | _, _ => onFloats Double.flooredRemainder
  | idiv =>
    match a, b with
    | .int _, .int 0 => .error (.here "attempt to perform 'n//0'")
    | .int x, .int y => .ok (.int (Int64.flooredQuotient x y))
    | _, _ => onFloats fun x y => (x / y).floor
  | unm =>
    match a with
    | .int x => .ok (.int (-x))
    | .float x => .ok (.float (-x))
  | band => onBits fun x y => .ofUInt64 (x.toUInt64 &&& y.toUInt64)
  | bor => onBits fun x y => .ofUInt64 (x.toUInt64 ||| y.toUInt64)
  | bxor => onBits fun x y => .ofUInt64 (x.toUInt64 ^^^ y.toUInt64)
  | shl => onBits fun x y => Int64.shifted x y
  | shr => onBits fun x y => if y = Int64.minValue then 0 else Int64.shifted x (-y)
  | bnot => onBits fun x _ => .ofUInt64 (~~~ x.toUInt64)
where
  both (f : Int64 → Int64 → Int64) (g : Float → Float → Float) : Except Fault Number :=
    match a, b with
    | .int x, .int y => .ok (.int (f x y))
    | a, b => .ok (.float (g a.toFloat b.toFloat))
  power (x y : Float) : Float := if y == 2.0 then x * x else x.pow y

end Arithmetic

/-- How an operation goes on: with a value, with a call whose first result counts, or with an
error whose text names where the value came from. -/
inductive Operated where
  | value (v : Value)
  | call (f : Value) (args : List Value)
  | fault (f : Fault)

/-- An origin after a message. -/
def originText : Option Origin → Bytes
  | some o => " (" ++ o.text ++ ")"
  | none => []

/-- The error of a value that an operation does not know. -/
def Store.cannot (s : Store) (what : Bytes) (v : Value) (origin : Option Origin) : Fault :=
  .here ("attempt to " ++ what ++ " a " ++ s.typeName v ++ " value" ++ originText origin)

/-- The handler of the first of two values that has one. -/
def Store.handler (s : Store) (name : Bytes) (a b : Value) : Value :=
  match s.event a name with
  | .nil => s.event b name
  | f => f

namespace Value

/-- The value as an operand of an operation on bits: numerals count as numbers. -/
def isNumber : Value → Bool
  | number _ => true
  | _ => false

end Value

/-- The numbers that an operation computes on: one on bits reads numerals too. -/
def Arithmetic.operands? (op : Arithmetic) (a b : Value) : Option (Number × Number) :=
  match a, b with
  | .number x, .number y => some (x, y)
  | _, _ =>
    if op.isBitwise then do
      let x ← a.int?
      let y ← b.int?
      return (.int x, .int y)
    else none

/-- How an operation goes on that does not compute: the values may say by an event. -/
def Store.withoutNumbers (s : Store) (op : Arithmetic) (a b : Value)
    (left right : Option Origin) : Operated :=
  match s.handler (Bytes.ofString ("__" ++ op.name)) a b with
  | .nil =>
    if op.isBitwise then
      if a.isNumber && b.isNumber then
        let culprit := if a.int?.isSome then right else left
        .fault (.here ("number" ++ originText culprit ++ " has no integer representation"))
      else if a.isNumber then .fault (s.cannot "perform bitwise operation on" b right)
      else .fault (s.cannot "perform bitwise operation on" a left)
    else if a.isNumber then .fault (s.cannot "perform arithmetic on" b right)
    else .fault (s.cannot "perform arithmetic on" a left)
  | f => .call f [a, b]

/-- An arithmetic operation; with one operand that stands on both sides. -/
def Store.arithmetic (s : Store) (op : Arithmetic) (a b : Value)
    (left right : Option Origin) : Operated :=
  match op.operands? a b with
  | some (x, y) =>
    match op.compute x y with
    | .ok n => .value (.number n)
    | .error e => if op.isBitwise then s.withoutNumbers op a b left right else .fault e
  | none => s.withoutNumbers op a b left right

def Store.concat (s : Store) (a b : Value) (left right : Option Origin) : Operated :=
  match a.text?, b.text? with
  | some x, some y => .value (.string (x ++ y))
  | x, _ =>
    match s.handler "__concat" a b with
    | .nil =>
      if x.isSome then .fault (s.cannot "concatenate" b right)
      else .fault (s.cannot "concatenate" a left)
    | f => .call f [a, b]

def Store.length (s : Store) (v : Value) (origin : Option Origin) : Operated :=
  match v with
  | .string bs => .value (.ofNat bs.length)
  | v =>
    match s.event v "__len" with
    | .nil =>
      match v with
      | .table a => .value (.ofNat (s.table a).length)
      | v => .fault (s.cannot "get length of" v origin)
    | f => .call f [v]

/-- Equality: tables may say more by their events. -/
def Store.equal (s : Store) (a b : Value) : Operated :=
  if a.rawEquals b then .value (.bool true)
  else
    match a, b with
    | .table _, .table _ =>
      match s.handler "__eq" a b with
      | .nil => .value (.bool false)
      | f => .call f [a, b]
    | _, _ => .value (.bool false)

/-- How a comparison goes on whose operands have no order of their own. -/
def Store.withoutOrder (s : Store) (orEqual : Bool) (a b : Value) : Operated :=
  match s.handler (if orEqual then "__le" else "__lt") a b with
  | .nil =>
    let x := s.typeName a
    let y := s.typeName b
    .fault (.here (if x = y then "attempt to compare two " ++ x ++ " values"
      else "attempt to compare " ++ x ++ " with " ++ y))
  | f => .call f [a, b]

/-- The order of two values, or equality where `orEqual`. -/
def Store.ordered (s : Store) (orEqual : Bool) (a b : Value) : Operated :=
  match a, b with
  | .number x, .number y => .value (.bool (x.before orEqual y))
  | .string x, .string y =>
    .value (.bool (if orEqual then !Bytes.before y x else Bytes.before x y))
  | a, b => s.withoutOrder orEqual a b

end ScriptHost.Lua

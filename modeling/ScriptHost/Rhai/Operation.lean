import ScriptHost.Rhai.Failure

/-!
# Operations

What operators do to values. Integers do not wrap: a result that does not fit is a problem. An
operator that has no meaning for its operands is a function that is not found, but values of
different types can always be compared, and are not equal.
-/

namespace ScriptHost.Rhai

/-- How a message writes a call. -/
def signature (name : String) (args : List Value) : String :=
  name ++ " (" ++ ", ".intercalate (args.map Value.parameterType) ++ ")"

namespace Operation

abbrev Result := Except Problem Value

/-- An integer, or a problem if it does not fit. -/
def fitting (n : Int) (problem : String) : Result :=
  if Int64.minValue.toInt ≤ n ∧ n ≤ Int64.maxValue.toInt then .ok (.int (.ofInt n))
  else .error (.arithmetic problem)

/-- Two operands with a sign between them, as messages show them. -/
def shown (sign : String) (a b : Int) : String := toString a ++ " " ++ sign ++ " " ++ toString b

/-- `a` shifted to the left, or to the right by a negative number. -/
def shifted (a : Int64) (b : Int) : Int64 :=
  if 64 ≤ b then 0
  else if 0 ≤ b then .ofUInt64 (a.toUInt64 <<< b.toNat.toUInt64)
  else .ofInt (Int.shiftRight a.toInt (min 63 (-b).toNat))

/-- Arithmetic on integers. -/
def onInts (op : String) (x y : Int64) : Option Result :=
  let a := x.toInt
  let b := y.toInt
  match op with
  | "+" => some (fitting (a + b) ("Addition overflow: " ++ shown "+" a b))
  | "-" => some (fitting (a - b) ("Subtraction overflow: " ++ shown "-" a b))
  | "*" => some (fitting (a * b) ("Multiplication overflow: " ++ shown "*" a b))
  | "/" =>
    some (if b = 0 then .error (.arithmetic ("Division by zero: " ++ shown "/" a b))
      else fitting (Int.tdiv a b) ("Division overflow: " ++ shown "/" a b))
  | "%" =>
    some (if b = 0 ∨ (b = -1 ∧ a = Int64.minValue.toInt) then
        .error (.arithmetic ("Modulo division by zero or overflow: " ++ shown "%" a b))
      else .ok (.int (.ofInt (Int.tmod a b))))
  | "**" =>
    some (if b < 0 then
        .error (.arithmetic ("Integer raised to a negative power: " ++ shown "**" a b))
      else if UInt32.size ≤ b then
        .error (.arithmetic ("Integer raised to too large an index: " ++ shown "**" a b))
      else if a = 0 ∨ a = 1 ∨ a = -1 ∨ b < 64 then
        fitting (if a.natAbs ≤ 1 then (if b % 2 = 0 then (if b = 0 then 1 else a * a) else a)
          else Int.pow a b.toNat) ("Exponential overflow: " ++ shown "**" a b)
      else .error (.arithmetic ("Exponential overflow: " ++ shown "**" a b)))
  | "<<" => some (.ok (.int (shifted x b)))
  | ">>" => some (.ok (.int (shifted x (-b))))
  | "&" => some (.ok (.int (x &&& y)))
  | "|" => some (.ok (.int (x ||| y)))
  | "^" => some (.ok (.int (x ^^^ y)))
  | ".." => some (.ok (.range x y false))
  | "..=" => some (.ok (.range x y true))
  | _ => none

/-- Arithmetic on floats. -/
def onFloats (op : String) (x y : Float) : Option Result :=
  match op with
  | "+" => some (.ok (.float (x + y)))
  | "-" => some (.ok (.float (x - y)))
  | "*" => some (.ok (.float (x * y)))
  | "/" => some (.ok (.float (x / y)))
  | "%" => some (.ok (.float (Double.truncatedRemainder x y)))
  | "**" => some (.ok (.float (Float.pow x y)))
  | _ => none

/-- The answer of a comparison, from whether the first operand is below, equal or above. -/
def compared? (op : String) (below equal above : Bool) : Option Bool :=
  match op with
  | "==" => some equal
  | "!=" => some !equal
  | "<" => some below
  | "<=" => some (below || equal)
  | ">" => some above
  | ">=" => some (above || equal)
  | _ => none

/-- The text of a character or string. -/
def textOf? : Value → Option String
  | .text s => some s
  | .char c => some c.toString
  | _ => none

/-- The float of a number. -/
def floatOf? : Value → Option Float
  | .int n => some n.toFloat
  | .float x => some x
  | _ => none

mutual

/-- Are values equal? Numbers are by their values, and characters are texts. -/
def equal : Value → Value → Bool
  | .unit, .unit => true
  | .bool a, .bool b => a == b
  | .int a, .int b => a == b
  | .float x, .float y => x == y
  | .int a, .float y => a.toFloat == y
  | .float x, .int b => x == b.toFloat
  | .char a, .char b => a == b
  | .text a, .text b => a == b
  | .char a, .text b => a.toString == b
  | .text a, .char b => a == b.toString
  | .array xs, .array ys => allEqual xs ys
  | .map xs, .map ys => fieldsEqual xs ys
  | .range a b c, .range d e f => a == d && b == e && c == f
  | _, _ => false

def allEqual : List Value → List Value → Bool
  | [], [] => true
  | x :: xs, y :: ys => equal x y && allEqual xs ys
  | _, _ => false

def fieldsEqual : List (String × Value) → List (String × Value) → Bool
  | [], [] => true
  | (n, x) :: xs, (m, y) :: ys => n == m && equal x y && fieldsEqual xs ys
  | _, _ => false

end

/-- Comparison of values: numbers and texts have an order, other values of one type may only be
equal. -/
def comparison (op : String) (a b : Value) : Option Bool :=
  match floatOf? a, floatOf? b, textOf? a, textOf? b with
  | some x, some y, _, _ =>
    match a, b with
    | .int n, .int m => compared? op (n < m) (n == m) (m < n)
    | _, _ =>
      if (x == x) && (y == y) then compared? op (x < y) (x == y) (y < x)
      else compared? op false false false
  | _, _, some s, some t => compared? op (s < t) (s == t) (t < s)
  | _, _, _, _ =>
    match a, b with
    | .bool p, .bool q => compared? op (!p && q) (p == q) (p && !q)
    | .unit, .unit => compared? op false true false
    | _, _ =>
      if a.typeName = b.typeName then
        match op with
        | "==" => some (equal a b)
        | "!=" => some !(equal a b)
        | _ => none
      else compared? op false false false

/-- Fields with others put among them. -/
def mixed (fields others : List (String × Value)) : List (String × Value) :=
  others.foldl (fun acc (name, v) => Json.insertField name v acc) fields

/-- A text without the occurrences of another one. -/
def without (s t : String) : String := if t = "" then s else String.join (s.splitOn t)

/-- Operators on values that are not both numbers. -/
def onOthers (op : String) (a b : Value) : Option Result :=
  match op, a, b with
  | "+", .text s, v => some (.ok (.text (s ++ v.plainText)))
  | "+", v, .text s => some (.ok (.text (v.plainText ++ s)))
  | "+", .char c, .char d => some (.ok (.text (c.toString ++ d.toString)))
  | "-", .text s, .text t => some (.ok (.text (without s t)))
  | "-", .text s, .char c => some (.ok (.text (without s c.toString)))
  | "+", .array xs, .array ys => some (.ok (.array (xs ++ ys)))
  | "+", .map xs, .map ys => some (.ok (.map (mixed xs ys)))
  | "&", .bool p, .bool q => some (.ok (.bool (p && q)))
  | "|", .bool p, .bool q => some (.ok (.bool (p || q)))
  | "^", .bool p, .bool q => some (.ok (.bool (p ^^ q)))
  | _, _, _ => none

/-- Is a value in another one? -/
def contains? (whole part : Value) : Option Bool :=
  match whole, part with
  | .array items, v => some (items.any (equal v))
  | .map fields, .text s => some (fields.lookup s).isSome
  | .text s, v => (textOf? v).map fun t => t = "" || (s.splitOn t).length > 1
  | .range first last closed, .int n =>
    some (first ≤ n && (if closed then n ≤ last else n < last))
  | _, _ => none

/-- An operator between two operands. -/
def binary (op : String) (a b : Value) : Result :=
  let found : Option Result := match a, b with
    | .int x, .int y => onInts op x y
    | .float x, .float y => onFloats op x y
    | .int x, .float y => onFloats op x.toFloat y
    | .float x, .int y => onFloats op x y.toFloat
    | a, b => onOthers op a b
  match found with
  | some r => r
  | none =>
    match comparison op a b, if op = "contains" then contains? a b else none with
    | some p, _ => .ok (.bool p)
    | none, some p => .ok (.bool p)
    | none, none => .error (.functionNotFound (signature op [a, b]))

/-- An operator before an operand. -/
def prefixed (op : String) (a : Value) : Result :=
  match op, a with
  | "-", .int n => fitting (-n.toInt) ("Negation overflow: -" ++ toString n.toInt)
  | "-", .float x => .ok (.float (-x))
  | "+", .int n => .ok (.int n)
  | "+", .float x => .ok (.float x)
  | "!", .bool b => .ok (.bool !b)
  | op, a => .error (.functionNotFound (signature op [a]))

/-- An operator with its operands. -/
def run (op : String) (args : List Value) : Result :=
  match args with
  | [a] => prefixed op a
  | [a, b] => binary op a b
  | args => .error (.functionNotFound (signature op args))

/-- An operator that changes its first operand: an item is put behind an array. -/
def assigning (op : String) (a b : Value) : Result :=
  match op, a, b with
  | "+", .array xs, .array ys => .ok (.array (xs ++ ys))
  | "+", .array xs, v => .ok (.array (xs ++ [v]))
  | op, a, b => binary op a b

end Operation

end ScriptHost.Rhai

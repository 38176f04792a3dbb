import ScriptHost.Decimal.Binary
import ScriptHost.Wasm.Numeric
import ScriptHost.Wasm.Value

/-!
# Results of numeric instructions

Integers are computed as natural numbers below a power of two, and read as two's
complement where an instruction has a sign. Floats are computed as doubles, which is
exact for both widths up to the one rounding of the result.
-/

namespace ScriptHost.Wasm

/-! ## Integers -/

/-- A number below `2 ^ w` read as a two's complement integer. -/
def toSigned (w n : Nat) : Int := if n < Nat.pow 2 (w - 1) then n else (n : Int) - Nat.pow 2 w

/-- An integer modulo `2 ^ w`. -/
def ofSigned (w : Nat) (i : Int) : Nat := (i % Nat.pow 2 w).toNat

/-- The number of zero bits above the highest one. -/
def countLeading (w n : Nat) : Nat := if n = 0 then w else w - 1 - Nat.log2 n

/-- The number of zero bits below the lowest one. -/
def countTrailing (w n : Nat) : Nat := ((List.range w).takeWhile fun i => !n.testBit i).length

def countOnes (w n : Nat) : Nat := ((List.range w).filter n.testBit).length

def IntUnary.eval (w : Nat) (n : Nat) : IntUnary → Nat
  | .clz => countLeading w n
  | .ctz => countTrailing w n
  | .popcnt => countOnes w n
  | .extend bits => ofSigned w (toSigned bits (n % Nat.pow 2 bits))

def IntBinary.eval (w a b : Nat) : IntBinary → Except Trap Nat
  | .add => .ok ((a + b) % Nat.pow 2 w)
  | .sub => .ok ((a + (Nat.pow 2 w - b)) % Nat.pow 2 w)
  | .mul => .ok ((a * b) % Nat.pow 2 w)
  | .divS =>
    if b = 0 then .error .integerDivideByZero
    else
      let q := Int.tdiv (toSigned w a) (toSigned w b)
      if q = Nat.pow 2 (w - 1) then .error .integerOverflow else .ok (ofSigned w q)
  | .divU => if b = 0 then .error .integerDivideByZero else .ok (a / b)
  | .remS =>
    if b = 0 then .error .integerDivideByZero
    else .ok (ofSigned w (Int.tmod (toSigned w a) (toSigned w b)))
  | .remU => if b = 0 then .error .integerDivideByZero else .ok (a % b)
  | .and => .ok (a &&& b)
  | .or => .ok (a ||| b)
  | .xor => .ok (a ^^^ b)
  | .shl => .ok ((a <<< (b % w)) % Nat.pow 2 w)
  | .shrS => .ok (ofSigned w (toSigned w a >>> (b % w)))
  | .shrU => .ok (a >>> (b % w))
  | .rotl => .ok (((a <<< (b % w)) ||| (a >>> (w - b % w))) % Nat.pow 2 w)
  | .rotr => .ok (((a >>> (b % w)) ||| (a <<< (w - b % w))) % Nat.pow 2 w)

def IntCompare.eval (w a b : Nat) : IntCompare → Bool
  | .eq => a = b
  | .ne => a ≠ b
  | .ltS => toSigned w a < toSigned w b
  | .ltU => a < b
  | .gtS => toSigned w b < toSigned w a
  | .gtU => b < a
  | .leS => toSigned w a ≤ toSigned w b
  | .leU => a ≤ b
  | .geS => toSigned w b ≤ toSigned w a
  | .geU => b ≤ a

/-! ## Floats -/

/-- A float of either width, as a double for the operations that are exact on both. -/
def readFloat (w : Width) (n : Nat) : Float :=
  match w with
  | .w32 => (Float32.ofBits n.toUInt32).toFloat
  | .w64 => Float.ofBits n.toUInt64

def bitsOfFloat (w : Width) (x : Float) : Nat :=
  match w with
  | .w32 => x.toFloat32.toBits.toNat
  | .w64 => x.toBits.toNat

/-- The nearest integer; a half goes to the even neighbour. -/
def roundNearest (x : Float) : Float :=
  let a := x.abs
  if !(a < 4503599627370496.0) then x
  else
    let r := (a + 4503599627370496.0) - 4503599627370496.0
    if x.toBits >>> 63 = 1 then -r else r

def truncated (x : Float) : Float := if x < 0.0 then x.ceil else x.floor

def FloatUnary.eval (w : Width) (n : Nat) : FloatUnary → Nat
  | .abs => n % Nat.pow 2 (w.bits - 1)
  | .neg => n ^^^ Nat.pow 2 (w.bits - 1)
  | .ceil => bitsOfFloat w (readFloat w n).ceil
  | .floor => bitsOfFloat w (readFloat w n).floor
  | .trunc => bitsOfFloat w (truncated (readFloat w n))
  | .nearest => bitsOfFloat w (roundNearest (readFloat w n))
  | .sqrt => bitsOfFloat w (readFloat w n).sqrt

/-- The lesser of two floats; negative zero is below zero, and a NaN wins. -/
def floatMin (x y : Float) : Float :=
  if x.isNaN || y.isNaN then x + y
  else if x == y then (if x.toBits >>> 63 = 1 then x else y)
  else if x < y then x else y

def floatMax (x y : Float) : Float :=
  if x.isNaN || y.isNaN then x + y
  else if x == y then (if x.toBits >>> 63 = 1 then y else x)
  else if x < y then y else x

def FloatBinary.eval (w : Width) (m n : Nat) (op : FloatBinary) : Nat :=
  let x := readFloat w m
  let y := readFloat w n
  match op with
  | .add => bitsOfFloat w (x + y)
  | .sub => bitsOfFloat w (x - y)
  | .mul => bitsOfFloat w (x * y)
  | .div => bitsOfFloat w (x / y)
  | .min => bitsOfFloat w (floatMin x y)
  | .max => bitsOfFloat w (floatMax x y)
  | .copysign => m % Nat.pow 2 (w.bits - 1) + n / Nat.pow 2 (w.bits - 1) * Nat.pow 2 (w.bits - 1)

def FloatCompare.eval (x y : Float) : FloatCompare → Bool
  | .eq => x == y
  | .ne => x != y
  | .lt => x < y
  | .gt => y < x
  | .le => x ≤ y
  | .ge => y ≤ x

/-- The integer part of a finite double. -/
def integerPart (p : Decimal.Parts) : Int :=
  let n := (Decimal.Ratio.ofScaled p.mantissa p.exponent).floor
  if p.negative then -(n : Int) else n

/-- A double as an integer of `w` bits: out of range it traps, or goes to the nearest end if
`saturating`. -/
def truncateTo (w : Nat) (signed saturating : Bool) (x : Float) : Except Trap Nat :=
  let low : Int := if signed then -(Nat.pow 2 (w - 1) : Int) else 0
  let high : Int := ((Nat.pow 2 (if signed then w - 1 else w) : Nat) : Int) - 1
  match Decimal.content x with
  | .notANumber => if saturating then .ok 0 else .error .invalidConversion
  | .infinite negative =>
    if saturating then .ok (ofSigned w (if negative then low else high))
    else .error .integerOverflow
  | .finite p =>
    let n := integerPart p
    if low ≤ n ∧ n ≤ high then .ok (ofSigned w n)
    else if saturating then .ok (ofSigned w (if n < low then low else high))
    else .error .integerOverflow

/-- An integer of `source` bits as a float, rounded once. -/
def convertFrom (target source : Width) (signed : Bool) (n : Nat) : Nat :=
  let i : Int := if signed then toSigned source.bits n else n
  match target with
  | .w64 =>
    let x := i.natAbs.toUInt64.toFloat
    (if i < 0 then -x else x).toBits.toNat
  | .w32 =>
    let x := i.natAbs.toUInt64.toFloat32
    (if i < 0 then -x else x).toBits.toNat

/-- The result of an instruction on the bits of its operands. -/
def Numeric.eval (op : Numeric) (a b : Nat) : Except Trap Value :=
  match op with
  | .eqz _ => .ok (Value.ofBool (a = 0))
  | .intUnary w op => .ok (.ofBits w.int (op.eval w.bits a))
  | .intBinary w op => (op.eval w.bits a b).map (.ofBits w.int)
  | .intCompare w op => .ok (Value.ofBool (op.eval w.bits a b))
  | .floatUnary w op => .ok (.ofBits w.float (op.eval w a))
  | .floatBinary w op => .ok (.ofBits w.float (op.eval w a b))
  | .floatCompare w op => .ok (Value.ofBool (op.eval (readFloat w a) (readFloat w b)))
  | .wrap => .ok (.i32 (a % UInt32.size).toUInt32)
  | .extend signed =>
    .ok (.i64 (if signed then (ofSigned 64 (toSigned 32 a)).toUInt64 else a.toUInt64))
  | .truncate target source signed saturating =>
    (truncateTo target.bits signed saturating (readFloat source a)).map (.ofBits target.int)
  | .convert target source signed => .ok (.ofBits target.float (convertFrom target source signed a))
  | .demote => .ok (.f32 (Float.ofBits a.toUInt64).toFloat32.toBits)
  | .promote => .ok (.f64 (Float32.ofBits a.toUInt32).toFloat.toBits)
  | .intOfBits w => .ok (.ofBits w.int a)
  | .floatOfBits w => .ok (.ofBits w.float a)

end ScriptHost.Wasm

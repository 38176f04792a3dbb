import ScriptHost.Decimal.Double
import ScriptHost.Decimal.Rounded
import ScriptHost.Lua.Bytes

/-!
# Numbers

A number is a 64-bit integer, whose arithmetic wraps, or a double. Integers and floats
with the same value are equal; an operation on two integers stays with integers except
where the operation is one of floats.
-/

namespace ScriptHost.Lua

inductive Number where
  | int (n : Int64)
  | float (x : Float)

/-- The floored quotient of integers. -/
def Int64.flooredQuotient (a b : Int64) : Int64 := .ofInt (Int.fdiv a.toInt b.toInt)

/-- The remainder of the floored quotient of integers. -/
def Int64.flooredRemainder (a b : Int64) : Int64 := .ofInt (Int.fmod a.toInt b.toInt)

/-- Shifts the bits up, or down for a negative amount; zeros come in. -/
def Int64.shifted (a b : Int64) : Int64 :=
  if b ≤ -64 ∨ 64 ≤ b then 0
  else if 0 ≤ b then .ofUInt64 (a.toUInt64 <<< b.toUInt64)
  else .ofUInt64 (a.toUInt64 >>> (-b).toUInt64)

namespace Number

instance : Inhabited Number := ⟨.int 0⟩

def toFloat : Number → Float
  | int n => n.toFloat
  | float x => x

/-- The integer that a number is exactly. -/
def toInt? : Number → Option Int64
  | int n => some n
  | float x => Double.toInt64? x

/-- The same number, as an integer if it is one. -/
def normal (n : Number) : Number :=
  match n.toInt? with
  | some k => int k
  | none => n

/-- Are the numbers equal? -/
def equals : Number → Number → Bool
  | int a, int b => a == b
  | float x, float y => x == y
  | int a, float x | float x, int a => Double.toInt64? x == some a

/-- Is an integer below a double? -/
def intBefore (a : Int64) (x : Float) (orEqual : Bool) : Bool :=
  if x ≥ 9223372036854775808.0 then true
  else
    match Double.round? (!orEqual) x with
    | some k => if orEqual then a ≤ k else a < k
    | none => false

/-- Is a double below an integer? -/
def floatBefore (x : Float) (a : Int64) (orEqual : Bool) : Bool :=
  if x < -9223372036854775808.0 then true
  else
    match Double.round? orEqual x with
    | some k => if orEqual then k ≤ a else k < a
    | none => false

/-- Is the first number below the second, or equal to it where `orEqual`? -/
def before (orEqual : Bool) : Number → Number → Bool
  | int a, int b => if orEqual then a ≤ b else a < b
  | float x, float y => if orEqual then x ≤ y else x < y
  | int a, float x => intBefore a x orEqual
  | float x, int a => floatBefore x a orEqual

/-! ## Text -/

/-- A double with fourteen significant digits; `.0` marks one that looks like an integer. -/
def floatText (x : Float) : List Char :=
  match Decimal.content x with
  | .notANumber => "-nan".toList
  | .infinite negative => (if negative then "-inf" else "inf").toList
  | .finite p =>
    let digits := (Decimal.Ratio.ofScaled p.mantissa p.exponent).general 14 false
    let digits := if p.negative then '-' :: digits else digits
    if digits.all fun c => c.isDigit || c = '-' then digits ++ ".0".toList else digits

def toText : Number → Bytes
  | int n => Bytes.ofString (toString n.toInt)
  | float x => Bytes.ofString (String.ofList (floatText x))

/-- Digits with their count: the value in a base. -/
def digitsValue (base : Nat) (ds : Bytes) : Nat :=
  ds.foldl (fun n d => base * n + (Bytes.hexValue? d).getD 0) 0

/-- An exponent of ten or two: an optional sign and digits, up to the end. -/
def exponent? : Bytes → Option Int
  | 43 :: ds => digits? ds |>.map fun (n : Nat) => (n : Int)
  | 45 :: ds => digits? ds |>.map fun (n : Nat) => -(n : Int)
  | ds => digits? ds |>.map fun (n : Nat) => (n : Int)
where
  digits? (ds : Bytes) : Option Nat :=
    if ds.isEmpty || !ds.all Bytes.isDigit then none else some (digitsValue 10 ds)

/-- The ratio `mantissa * base ^ exponent`; far out of the range of doubles the exponent is
cut, which changes nothing. -/
def scaled (mantissa base : Nat) (exponent : Int) : Decimal.Ratio :=
  if mantissa = 0 then ⟨0, 1⟩
  else
    let bound : Int := 2000 + 4 * (Nat.log2 mantissa : Int)
    match max (-bound) (min bound exponent) with
    | .ofNat k => ⟨mantissa * Nat.pow base k, 1⟩
    | .negSucc k => ⟨mantissa, Nat.pow base (k + 1)⟩

/-- A numeral without sign: hexadecimal after `0x`, with a point and an exponent of ten or,
for hexadecimal digits, of two. Integers that do not fit are floats in decimal and wrap in
hexadecimal. -/
def unsigned? (bs : Bytes) : Option (Bool → Number) :=
  let hexadecimal := match bs with
    | 48 :: x :: _ => x == 120 || x == 88
    | _ => false
  let base := if hexadecimal then 16 else 10
  let isMark (b : UInt8) := if hexadecimal then b == 112 || b == 80 else b == 101 || b == 69
  let isDigit := if hexadecimal then Bytes.isHexDigit else Bytes.isDigit
  let body := if hexadecimal then bs.drop 2 else bs
  let whole := body.takeWhile isDigit
  let rest := body.dropWhile isDigit
  if rest.isEmpty then
    if whole.isEmpty then none
    else
      let n := digitsValue base whole
      if hexadecimal then
        some fun negative => .int (if negative then -(Int64.ofNat n) else .ofNat n)
      else
        some fun negative =>
          if n < Nat.pow 2 63 then .int (if negative then -(Int64.ofNat n) else .ofNat n)
          else if negative ∧ n = Nat.pow 2 63 then .int (Int64.ofNat n)
          else .float (Double.ofRatio negative ⟨n, 1⟩)
  else
    let (fraction, rest) := match rest with
      | 46 :: rest => (rest.takeWhile isDigit, rest.dropWhile isDigit)
      | _ => ([], rest)
    if whole.isEmpty && fraction.isEmpty then none
    else
      let power : Option Int := match rest with
        | [] => some 0
        | b :: ds => if isMark b then exponent? ds else none
      power.map fun power negative =>
        let places := (if hexadecimal then 4 else 1) * (fraction.length : Int)
        let mantissa := digitsValue base (whole ++ fraction)
        .float (Double.ofRatio negative
          (scaled mantissa (if hexadecimal then 2 else 10) (power - places)))

/-- A numeral with blanks around it and a sign before it. -/
def ofText? (bs : Bytes) : Option Number :=
  let bs := ((bs.dropWhile Bytes.isBlank).reverse.dropWhile Bytes.isBlank).reverse
  match bs with
  | 45 :: rest => (unsigned? rest).map (· true)
  | 43 :: rest => (unsigned? rest).map (· false)
  | _ => (unsigned? bs).map (· false)

end Number

end ScriptHost.Lua

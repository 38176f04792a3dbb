/-!
# Doubles as exact numbers

A finite double is a sign, a natural number and a power of two. All reading and writing
of decimal text goes through this form, in exact arithmetic.
-/

namespace ScriptHost.Decimal

/-- The parts of a finite double: its absolute value is `mantissa * 2 ^ exponent`.
`narrow` says that the next smaller double is only half as far away as the next larger. -/
structure Parts where
  negative : Bool
  mantissa : Nat
  exponent : Int
  narrow : Bool

/-- What a double holds. -/
inductive Content where
  | finite (parts : Parts)
  | infinite (negative : Bool)
  | notANumber

/-- Reads the sign, exponent and mantissa fields of a double. -/
def content (x : Float) : Content :=
  let bits : Nat := x.toBits.toNat
  let negative := bits / Nat.pow 2 63 = 1
  let field : Nat := bits / Nat.pow 2 52 % 2048
  let fraction : Nat := bits % Nat.pow 2 52
  if field = 2047 then
    if fraction = 0 then .infinite negative else .notANumber
  else if field = 0 then .finite ⟨negative, fraction, -1074, false⟩
  else .finite ⟨negative, Nat.pow 2 52 + fraction, (field : Int) - 1075, fraction = 0 && 1 < field⟩

/-- A nonnegative rational as numerator and denominator. -/
structure Ratio where
  num : Nat
  den : Nat

/-- `n * 2 ^ e` as a ratio. -/
def Ratio.ofScaled (n : Nat) (e : Int) : Ratio :=
  match e with
  | .ofNat k => ⟨n * Nat.pow 2 k, 1⟩
  | .negSucc k => ⟨n, Nat.pow 2 (k + 1)⟩

/-- The ratio divided by `10 ^ e`. -/
def Ratio.scale (r : Ratio) (e : Int) : Ratio :=
  match e with
  | .ofNat k => ⟨r.num, r.den * Nat.pow 10 k⟩
  | .negSucc k => ⟨r.num * Nat.pow 10 (k + 1), r.den⟩

/-- The largest integer that is not above the ratio. -/
def Ratio.floor (r : Ratio) : Nat := r.num / r.den

/-- The nearest integer; a half goes to the even neighbour. -/
def Ratio.round (r : Ratio) : Nat :=
  let q := r.num / r.den
  let twice := 2 * (r.num % r.den)
  if twice < r.den then q
  else if r.den < twice then q + 1
  else if q % 2 = 0 then q else q + 1

/-- Is the ratio at most `10 ^ e`, or below it? -/
def Ratio.ltPow (r : Ratio) (e : Int) : Bool :=
  let s := r.scale e
  s.num < s.den

/-- Walks `guess` up until the ratio is below `10 ^ (guess + 1)`, `fuel` steps at most. -/
def Ratio.raise (r : Ratio) : Nat → Int → Int
  | 0, guess => guess
  | fuel + 1, guess => if r.ltPow (guess + 1) then guess else r.raise fuel (guess + 1)

/-- The exponent of the leading decimal digit of a positive ratio: the largest `e` with
`10 ^ e` not above it. The guess from the binary lengths is at most one below. -/
def Ratio.leading (r : Ratio) : Int :=
  let bits : Int := (Nat.log2 r.num : Int) - (Nat.log2 r.den : Int) - 1
  r.raise 4 (Int.fdiv (bits * 30103) 100000 - 1)

end ScriptHost.Decimal

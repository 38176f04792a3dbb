import ScriptHost.Decimal.Binary

/-!
# The nearest binary float

Rounds an exact ratio to a binary format with a number of significant bits and a least
exponent. A value half way between two floats goes to the one whose last bit is zero.
-/

namespace ScriptHost.Decimal

/-- A binary float format: `precision` significant bits, the last of which is never below
`2 ^ least`, and exponents up to `greatest` for it. -/
structure BinaryFormat where
  precision : Nat
  least : Int
  greatest : Int

namespace BinaryFormat

def single : BinaryFormat := ⟨24, -149, 104⟩
def double : BinaryFormat := ⟨53, -1074, 971⟩

/-- The ratio divided by `2 ^ e`. -/
def scaled (r : Ratio) (e : Int) : Ratio :=
  match e with
  | .ofNat k => ⟨r.num, r.den * Nat.pow 2 k⟩
  | .negSucc k => ⟨r.num * Nat.pow 2 (k + 1), r.den⟩

/-- The exponent of the last bit of a ratio that is not zero: the guess from the lengths of
numerator and denominator is at most one too high. -/
def lastExponent (f : BinaryFormat) (r : Ratio) : Int :=
  let guess : Int := (Nat.log2 r.num : Int) - (Nat.log2 r.den : Int) - f.precision + 1
  let e :=
    if (scaled r guess).num < (scaled r guess).den * Nat.pow 2 (f.precision - 1) then guess - 1
    else guess
  max e f.least

/-- The bits of the nearest float without its sign; none if the ratio is too great. -/
def bits? (f : BinaryFormat) (r : Ratio) : Option Nat :=
  if r.num = 0 then some 0
  else
    let e := f.lastExponent r
    let n := (scaled r e).round
    -- A carry into one more bit doubles the exponent and leaves zeros behind.
    let (n, e) := if n = Nat.pow 2 f.precision then (Nat.pow 2 (f.precision - 1), e + 1) else (n, e)
    if f.greatest < e then none
    else if n < Nat.pow 2 (f.precision - 1) then some n
    else some ((e - f.least).toNat * Nat.pow 2 (f.precision - 1) + n)

end BinaryFormat

end ScriptHost.Decimal

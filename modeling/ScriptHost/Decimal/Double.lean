import ScriptHost.Decimal.Nearest

/-!
# Doubles

What the languages of scripts need beyond the arithmetic of doubles: reading an exact ratio,
remainders without rounding, and the integers among the doubles.
-/

namespace ScriptHost.Double

/-- The double nearest to a ratio. -/
def ofRatio (negative : Bool) (r : Decimal.Ratio) : Float :=
  let bits := match Decimal.BinaryFormat.double.bits? r with
    | some bits => bits
    | none => 0x7ff0000000000000
  .ofBits ((if negative then Nat.pow 2 63 else 0) + bits).toUInt64

/-- The remainder of the truncated quotient, with the sign of the dividend; exact. -/
def truncatedRemainder (a b : Float) : Float :=
  match Decimal.content a, Decimal.content b with
  | .finite p, .finite q =>
    if q.mantissa = 0 then 0.0 / 0.0
    else
      let e := min p.exponent q.exponent
      let whole (x : Decimal.Parts) : Nat := x.mantissa * Nat.pow 2 (x.exponent - e).toNat
      let m := whole p % whole q
      ofRatio p.negative (.ofScaled m e)
  | .finite _, .infinite _ => a
  | _, _ => 0.0 / 0.0

/-- The remainder of the floored quotient, with the sign of the divisor. -/
def flooredRemainder (a b : Float) : Float :=
  let r := truncatedRemainder a b
  if (0.0 < r && b < 0.0) || (r < 0.0 && 0.0 < b) then r + b else r

/-- The integer that a double is exactly. -/
def toInt64? (x : Float) : Option Int64 :=
  if x.floor == x && -9223372036854775808.0 ≤ x && x < 9223372036854775808.0 then some x.toInt64
  else none

/-- The greatest integer not above a double, or the least one not below it. -/
def round? (up : Bool) (x : Float) : Option Int64 := toInt64? (if up then x.ceil else x.floor)

end ScriptHost.Double

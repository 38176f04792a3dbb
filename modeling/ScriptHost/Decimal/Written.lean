import ScriptHost.Decimal.Shortest

/-!
# Written decimals

The two ways to write a decimal: all places with a point where it belongs, and one digit
before the point with a power of ten.
-/

namespace ScriptHost.Decimal.Digits

/-- The exponent of the first digit. -/
def top (d : Digits) : Int := d.exponent + (Nat.toDigits 10 d.digits).length - 1

/-- All places. A whole number gets a point and a zero where `point` holds. -/
def positional (d : Digits) (point : Bool) : List Char :=
  let ds := Nat.toDigits 10 d.digits
  if 0 ≤ d.exponent then
    ds ++ List.replicate d.exponent.toNat '0' ++ (if point then ['.', '0'] else [])
  else if 0 ≤ d.top then ds.take (d.top.toNat + 1) ++ '.' :: ds.drop (d.top.toNat + 1)
  else ['0', '.'] ++ List.replicate (d.top.natAbs - 1) '0' ++ ds

/-- The digits with the point behind the first one; a single digit has none. -/
def coefficient (d : Digits) : List Char :=
  match Nat.toDigits 10 d.digits with
  | [] => []
  | [c] => [c]
  | c :: rest => c :: '.' :: rest

/-- Scientific notation with a plain exponent. -/
def scientific (d : Digits) : List Char :=
  d.coefficient ++ 'e' :: (if d.top < 0 then ['-'] else []) ++ Nat.toDigits 10 d.top.natAbs

end ScriptHost.Decimal.Digits

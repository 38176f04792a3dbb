import ScriptHost.Decimal.Binary

/-!
# Decimals of a fixed length

Rounds the exact value of a double to a number of significant digits or of places after
the point. A value half way between two decimals goes to the even one.
-/

namespace ScriptHost.Decimal

/-- The decimal digits of `n`. -/
def digitChars (n : Nat) : List Char := Nat.toDigits 10 n

/-- `n` in at least `width` digits. -/
def paddedDigits (width n : Nat) : List Char :=
  let ds := digitChars n
  List.replicate (width - ds.length) '0' ++ ds

/-- The value rounded to `places` digits after the point. -/
def Ratio.fixed (r : Ratio) (places : Nat) : List Char :=
  let n := (r.scale (-(places : Int))).round
  if places = 0 then digitChars n
  else
    let ds := paddedDigits (places + 1) n
    ds.take (ds.length - places) ++ '.' :: ds.drop (ds.length - places)

/-- The value rounded to `count` significant digits, as the digits and the exponent of
the first of them. Zero has the exponent zero. -/
def Ratio.significant (r : Ratio) (count : Nat) : List Char × Int :=
  if r.num = 0 then (List.replicate count '0', 0)
  else
    let top := r.leading
    let n := (r.scale (top - ((count : Int) - 1))).round
    let ds := digitChars n
    if ds.length > count then (ds.take count, top + 1) else (ds, top)

/-- The digits without zeros at the end. -/
def dropTrailingZeros (ds : List Char) : List Char := (ds.reverse.dropWhile (· = '0')).reverse

/-- An exponent with its sign and at least two digits. -/
def exponentText (e : Int) : List Char :=
  (if e < 0 then '-' else '+') :: paddedDigits 2 e.natAbs

/-- Scientific notation with `places` digits after the point. -/
def Ratio.scientific (r : Ratio) (places : Nat) : List Char :=
  let (ds, e) := r.significant (places + 1)
  ds.take 1 ++ (if places = 0 then [] else '.' :: ds.drop 1) ++ 'e' :: exponentText e

/-- At most `count` significant digits: positional while the exponent of the first digit is
at least -4 and below `count`, scientific otherwise, without zeros at the end unless
`keepZeros`. -/
def Ratio.general (r : Ratio) (count : Nat) (keepZeros : Bool) : List Char :=
  let count := max count 1
  let (ds, e) := r.significant count
  let shorten (fraction : List Char) := if keepZeros then fraction else dropTrailingZeros fraction
  let joined (whole fraction : List Char) :=
    let fraction := shorten fraction
    if fraction.isEmpty then whole else whole ++ '.' :: fraction
  if e < -4 ∨ (count : Int) ≤ e then
    joined (ds.take 1) (ds.drop 1) ++ 'e' :: exponentText e
  else if e < 0 then
    joined ['0'] (List.replicate (e.natAbs - 1) '0' ++ ds)
  else
    joined (ds.take (e.toNat + 1)) (ds.drop (e.toNat + 1))

end ScriptHost.Decimal

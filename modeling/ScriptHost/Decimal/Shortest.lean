import ScriptHost.Decimal.Binary

/-!
# The shortest decimal that reads back

For a positive double this is the decimal with the fewest digits among those that round
to it, and of these the one nearest to its value. The search tests, for one digit, two,
and so on up to seventeen, the two neighbours of the value on that decimal grid.
-/

namespace ScriptHost.Decimal

/-- A decimal `digits * 10 ^ exponent`. -/
structure Digits where
  digits : Nat
  exponent : Int
  deriving DecidableEq

/-- The open or closed interval of the numbers that round to a double. -/
structure Window where
  low : Ratio
  high : Ratio
  closed : Bool

/-- The window of `m * 2 ^ q`: half way to either neighbour, ends included exactly when
`m` is even. -/
def Parts.window (p : Parts) : Window where
  low := Ratio.ofScaled (4 * p.mantissa - if p.narrow then 1 else 2) (p.exponent - 2)
  high := Ratio.ofScaled (4 * p.mantissa + 2) (p.exponent - 2)
  closed := p.mantissa % 2 = 0

/-- The order of two ratios: is `a` below `b`, or equal to it when `orEqual` holds? -/
def Ratio.before (a b : Ratio) (orEqual : Bool) : Bool :=
  let x := a.num * b.den
  let y := b.num * a.den
  x < y || (orEqual && x == y)

/-- Is `n * 10 ^ e` in the window? -/
def Window.holds (w : Window) (n : Nat) (e : Int) : Bool :=
  let r : Ratio := (Ratio.mk n 1).scale (-e)
  w.low.before r w.closed && r.before w.high w.closed

/-- The neighbours of the value on the grid of multiples of `10 ^ e` that lie in the
window, the nearer one if both do, the even one if both are as near. -/
def onGrid (value : Ratio) (w : Window) (e : Int) : Option Nat :=
  let scaled := value.scale e
  let below := scaled.floor
  match w.holds below e, w.holds (below + 1) e with
  | true, true => some scaled.round
  | true, false => some below
  | false, true => some (below + 1)
  | false, false => none

/-- Tries `remaining` more grids, the next one with leading digit at `top` and unit `10 ^ e`. -/
def firstGrid (value : Ratio) (w : Window) (e : Int) : Nat → Digits
  | 0 => ⟨value.scale e |>.round, e⟩
  | remaining + 1 =>
    match onGrid value w e with
    | some n => ⟨n, e⟩
    | none => firstGrid value w (e - 1) remaining

/-- Takes factors of ten out of the digits into the exponent. -/
def Digits.strip (d : Digits) : Digits :=
  if h : d.digits % 10 = 0 ∧ 0 < d.digits then
    Digits.strip ⟨d.digits / 10, d.exponent + 1⟩
  else d
termination_by d.digits
decreasing_by omega

/-- The shortest decimal of a double that is finite and not zero. -/
def Parts.shortest (p : Parts) : Digits :=
  let value := Ratio.ofScaled p.mantissa p.exponent
  (firstGrid value p.window value.leading 17).strip

end ScriptHost.Decimal

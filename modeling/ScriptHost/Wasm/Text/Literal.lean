import ScriptHost.Decimal.Nearest
import ScriptHost.Text.Digit

/-!
# Numbers in module text

A number may have a sign and may be hexadecimal, and single underscores may stand between
its digits. A float is rounded once to its format.
-/

namespace ScriptHost.Wasm.Text

/-- The digits at the front without underscores, and the rest; none unless there is a digit
first and last. -/
def digitRun (isDigit : Char → Bool) (cs : List Char) : Option (List Char × List Char) :=
  let run := cs.takeWhile fun c => isDigit c || c = '_'
  let rest := cs.dropWhile fun c => isDigit c || c = '_'
  if run.head?.all (· = '_') ∨ run.getLast? = some '_' ∨
      (run.zip run.tail).any fun (a, b) => a = '_' && b = '_' then none
  else some (run.filter (· ≠ '_'), rest)

/-- A sign at the front, and the rest. -/
def signOf : List Char → Option Char × List Char
  | '+' :: rest => (some '+', rest)
  | '-' :: rest => (some '-', rest)
  | cs => (none, cs)

/-- The value of digits in a base. -/
def valueIn (base : Nat) (ds : List Char) : Nat :=
  ds.foldl (fun n d => base * n + (Text.hexValue? d).getD 0) 0

/-- An integer literal: its sign, if it is written, and its absolute value. -/
def integer? (word : List Char) : Option (Option Char × Nat) := do
  let (sign, body) := signOf word
  let (base, isDigit, body) := match body with
    | '0' :: 'x' :: rest => (16, fun c => (Text.hexValue? c).isSome, rest)
    | _ => (10, Char.isDigit, body)
  let (ds, rest) ← digitRun isDigit body
  if rest = [] then return (sign, valueIn base ds) else none

/-- A number without sign below `bound`. -/
def unsigned? (bound : Nat) (word : List Char) : Option Nat := do
  let (sign, n) ← integer? word
  if sign = none ∧ n < bound then return n else none

/-- A number of `bits` bits, with or without sign, as the signed one of its bits. -/
def signed? (bits : Nat) (word : List Char) : Option Int := do
  let (sign, n) ← integer? word
  if sign = some '-' then
    if n ≤ Nat.pow 2 (bits - 1) then return -n else none
  else if n < Nat.pow 2 (bits - 1) then return n
  else if n < Nat.pow 2 bits then return (n : Int) - Nat.pow 2 bits
  else none

/-- The digits after a point, if there is one; a point may be the last. -/
def fraction? (isDigit : Char → Bool) : List Char → Option (List Char × List Char)
  | '.' :: rest =>
    if rest.head?.any isDigit then digitRun isDigit rest else some ([], rest)
  | cs => some ([], cs)

/-- The exponent behind its letter, which has to be the rest of the word. -/
def exponent? (letters : List Char) : List Char → Option Int
  | [] => some 0
  | c :: rest =>
    if letters.contains c then do
      let (sign, body) := signOf rest
      let (ds, rest) ← digitRun Char.isDigit body
      if rest ≠ [] then none
      else return if sign = some '-' then -(valueIn 10 ds : Int) else valueIn 10 ds
    else none

/-- The bits of a float of the format without its sign; `body` has none. -/
def magnitude? (f : Decimal.BinaryFormat) (body : List Char) : Option Nat := do
  let fractionBits := f.precision - 1
  let infinity := (f.greatest - f.least + 2).toNat * Nat.pow 2 fractionBits
  match body with
  | ['i', 'n', 'f'] => return infinity
  | ['n', 'a', 'n'] => return infinity + Nat.pow 2 (fractionBits - 1)
  | 'n' :: 'a' :: 'n' :: ':' :: '0' :: 'x' :: payload =>
    let (ds, rest) ← digitRun (fun c => (Text.hexValue? c).isSome) payload
    let n := valueIn 16 ds
    if rest = [] ∧ n ≠ 0 ∧ n < Nat.pow 2 fractionBits then return infinity + n else none
  | '0' :: 'x' :: body =>
    let isDigit := fun c => (Text.hexValue? c).isSome
    let (whole, rest) ← digitRun isDigit body
    let (part, rest) ← fraction? isDigit rest
    let e ← exponent? ['p', 'P'] rest
    if 100000 < e.natAbs then none
    else f.bits? (Decimal.Ratio.ofScaled (valueIn 16 (whole ++ part)) (e - 4 * part.length))
  | body =>
    let (whole, rest) ← digitRun Char.isDigit body
    let (part, rest) ← fraction? Char.isDigit rest
    let e ← exponent? ['e', 'E'] rest
    if 100000 < e.natAbs then none
    else f.bits? ((⟨valueIn 10 (whole ++ part), 1⟩ : Decimal.Ratio).scale (part.length - e))

/-- The bits of a float of the format. -/
def float? (f : Decimal.BinaryFormat) (word : List Char) : Option Nat := do
  let (sign, body) := signOf word
  let n ← magnitude? f body
  let top := (f.greatest - f.least + 3).toNat * Nat.pow 2 (f.precision - 1)
  return if sign = some '-' then top + n else n

end ScriptHost.Wasm.Text

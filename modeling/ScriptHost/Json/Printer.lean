import ScriptHost.Decimal.Written
import ScriptHost.Json
import ScriptHost.Text.Digit

/-!
# Compact JSON text

No blanks, fields in the order of the value, characters outside ASCII as they are. A
float has the fewest digits that read back and always a point or an exponent; one that
is not finite is written as null.
-/

namespace ScriptHost

namespace Decimal

/-- Writes a decimal with a point when the exponent of its first digit is between -5 and
15, and in scientific notation with a signed exponent otherwise. -/
def Digits.floatText (d : Digits) : List Char :=
  if -5 ≤ d.top ∧ d.top < 16 then d.positional true
  else
    d.coefficient ++ 'e' :: (if d.top < 0 then '-' else '+') :: Nat.toDigits 10 d.top.natAbs

end Decimal

namespace Json

open Decimal in
/-- The text of a float. -/
def floatText (x : Float) : String :=
  match content x with
  | .finite parts =>
    let sign := if parts.negative then "-" else ""
    if parts.mantissa = 0 then sign ++ "0.0"
    else sign ++ String.ofList parts.shortest.floatText
  | _ => "null"

/-- One character of a string: the two quotes' escapes, the short control escapes, and four
digits for every other control character below the blank. -/
def escapeChar (c : Char) : String :=
  if c = '"' then "\\\""
  else if c = '\\' then "\\\\"
  else if c = '\n' then "\\n"
  else if c = '\r' then "\\r"
  else if c = '\t' then "\\t"
  else if c.toNat = 8 then "\\b"
  else if c.toNat = 12 then "\\f"
  else if c.toNat < 0x20 then "\\u" ++ Text.hexPadded 4 c.toNat
  else c.toString

/-- A string in quotes. -/
def quote (s : String) : String :=
  "\"" ++ s.foldl (fun acc c => acc ++ escapeChar c) "" ++ "\""

mutual

/-- The compact text of a value. -/
def render : Json → String
  | .null => "null"
  | .bool true => "true"
  | .bool false => "false"
  | .int n => toString n
  | .float x => floatText x
  | .str s => quote s
  | .arr items => "[" ++ renderItems items ++ "]"
  | .obj fields => "\x7b" ++ renderFields fields ++ "\x7d"

/-- The items with commas between them. -/
def renderItems : List Json → String
  | [] => ""
  | [item] => render item
  | item :: rest => render item ++ "," ++ renderItems rest

/-- The fields with commas between them. -/
def renderFields : List (String × Json) → String
  | [] => ""
  | [(name, value)] => quote name ++ ":" ++ render value
  | (name, value) :: rest => quote name ++ ":" ++ render value ++ "," ++ renderFields rest

end

end Json

end ScriptHost

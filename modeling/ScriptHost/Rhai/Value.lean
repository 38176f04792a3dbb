import ScriptHost.Decimal.Double
import ScriptHost.Decimal.Written
import ScriptHost.Json
import ScriptHost.Text.Quoted

/-!
# Values

What the scripts of the embedded interpreter compute with. Integers have 64 bits with sign and
do not wrap. The fields of a map are in ascending order of their names, each name once.
-/

namespace ScriptHost.Rhai

/-- A function is known by its name; `bound` are the arguments that it has already. -/
inductive Value where
  | unit
  | bool (b : Bool)
  | int (n : Int64)
  | float (x : Float)
  | char (c : Char)
  | text (s : String)
  | array (items : List Value)
  | map (fields : List (String × Value))
  | range (first last : Int64) (closed : Bool)
  | function (name : String) (bound : List Value)

namespace Value

instance : Inhabited Value := ⟨.unit⟩

/-- The name of the type. -/
def typeName : Value → String
  | .unit => "()"
  | .bool _ => "bool"
  | .int _ => "i64"
  | .float _ => "f64"
  | .char _ => "char"
  | .text _ => "string"
  | .array _ => "array"
  | .map _ => "map"
  | .range _ _ false => "range"
  | .range _ _ true => "range="
  | .function _ _ => "Fn"

/-- How a message about a call shows the type of an argument. -/
def parameterType : Value → String
  | .text _ => "&str | ImmutableString | String"
  | v => v.typeName

/-! ## Text -/

open Decimal in
/-- The text of a float: scientific when its size is above `10 ^ high` or below `10 ^ low`, and
with a point otherwise. -/
def floatText (low high : Int) (signedZero : Bool) (x : Float) : String :=
  match content x with
  | .notANumber => "NaN"
  | .infinite negative => if negative then "-inf" else "inf"
  | .finite p =>
    if p.mantissa = 0 then (if signedZero ∧ p.negative then "-0.0" else "0.0")
    else
      let d := p.shortest
      let above := high < d.top ∨ (d.top = high ∧ ¬d.digits = 1)
      let text := if d.top < low ∨ above then d.scientific else d.positional true
      (if p.negative then "-" else "") ++ String.ofList text

/-- The text of a float as it is shown by itself. -/
def plainFloat (x : Float) : String := floatText (-7) 13 false x

/-- The text of a float inside other values: scientific from `10 ^ 16` on and
below `10 ^ -4`. -/
def innerFloat (x : Float) : String :=
  if Float.abs x ≥ 1e16 then floatText 0 0 true x else floatText (-4) 16 true x

def rangeText (first last : Int64) (closed : Bool) : String :=
  toString first.toInt ++ (if closed then "..=" else "..") ++ toString last.toInt

/-- A character between quotes. -/
def quoteChar (c : Char) : String :=
  let inner :=
    if c = '\'' then "\\'" else if c = '"' then "\"" else Text.Quoted.encodeChar c
  "'" ++ inner ++ "'"

mutual

/-- The text of a value inside another one. -/
def innerText : Value → String
  | .unit => "()"
  | .bool b => toString b
  | .int n => toString n.toInt
  | .float x => innerFloat x
  | .char c => quoteChar c
  | .text s => Text.Quoted.quote s
  | .array items => "[" ++ itemTexts items ++ "]"
  | .map fields => "#\x7b" ++ fieldTexts fields ++ "\x7d"
  | .range first last closed => rangeText first last closed
  | .function name _ => "Fn(" ++ name ++ ")"

def itemTexts : List Value → String
  | [] => ""
  | [v] => innerText v
  | v :: rest => innerText v ++ ", " ++ itemTexts rest

def fieldTexts : List (String × Value) → String
  | [] => ""
  | [(name, v)] => Text.Quoted.quote name ++ ": " ++ innerText v
  | (name, v) :: rest => Text.Quoted.quote name ++ ": " ++ innerText v ++ ", " ++ fieldTexts rest

end

/-- The text of a value by itself. -/
def plainText : Value → String
  | .unit => ""
  | .char c => c.toString
  | .text s => s
  | .float x => plainFloat x
  | v => innerText v

/-! ## Exchange with the host -/

mutual

/-- The value of a JSON value. Integers of more than 63 bits become floats. -/
def ofJson : Json → Value
  | .null => .unit
  | .bool b => .bool b
  | .int n =>
    if n ≤ Int64.maxValue.toInt then .int (.ofInt n)
    else .float (Double.ofRatio false ⟨n.toNat, 1⟩)
  | .float x => .float x
  | .str s => .text s
  | .arr items => .array (ofItems items)
  | .obj fields => .map (ofFields fields)

def ofItems : List Json → List Value
  | [] => []
  | v :: rest => ofJson v :: ofItems rest

def ofFields : List (String × Json) → List (String × Value)
  | [] => []
  | (name, v) :: rest => (name, ofJson v) :: ofFields rest

end

/-- Is a float one that JSON can hold? -/
def isFinite (x : Float) : Bool :=
  match Decimal.content x with
  | .finite _ => true
  | _ => false

mutual

/-- The JSON value of a value, or the type in it that has none. -/
def toJson? : Value → Except String Json
  | .unit => .ok .null
  | .bool b => .ok (.bool b)
  | .int n => .ok (.int n.toInt)
  | .float x => .ok (if isFinite x then .float x else .null)
  | .char c => .ok (.str c.toString)
  | .text s => .ok (.str s)
  | .array items => (toItems? items).map .arr
  | .map fields => (toFields? fields).map .obj
  | .range _ _ false => .error "core::ops::range::Range<i64>"
  | .range _ _ true => .error "core::ops::range::RangeInclusive<i64>"
  | .function _ _ => .error "Fn"

def toItems? : List Value → Except String (List Json)
  | [] => .ok []
  | v :: rest => do return (← toJson? v) :: (← toItems? rest)

def toFields? : List (String × Value) → Except String (List (String × Json))
  | [] => .ok []
  | (name, v) :: rest => do return (name, ← toJson? v) :: (← toFields? rest)

end

end Value

end ScriptHost.Rhai

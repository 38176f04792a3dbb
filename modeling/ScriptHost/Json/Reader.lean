import ScriptHost.Json
import ScriptHost.Json.Fault
import ScriptHost.Text.Digit

/-!
# Reading JSON text

A number without point and exponent that fits in 64 bits is an integer, every other one a
float, and so is `-0`. A float is its leading digits as a 64-bit integer, converted and
then multiplied or divided by a power of ten, which can differ from the nearest double in
the last place.
-/

namespace ScriptHost.Json

abbrev Reader (α : Type) := List Char → Except Fault (α × List Char)

/-- The characters after the blanks of the format. -/
def skipBlanks : List Char → List Char
  | c :: rest => if c = ' ' ∨ c = '\n' ∨ c = '\t' ∨ c = '\r' then skipBlanks rest else c :: rest
  | [] => []

/-- A fault at the character that stands next. -/
def atNext (cause : Cause) (rest : List Char) : Fault :=
  ⟨cause, rest, match rest with | [] => 0 | _ => 1⟩

/-- A fault at the character before the next. -/
def behind (cause : Cause) (rest : List Char) : Fault := ⟨cause, rest, 0⟩

/-! ## Numbers -/

/-- `digits * 10 ^ power` by one multiplication or division, for powers up to 308, and by a
division by `10 ^ 308` before that for each further 308 places of a small number. -/
def scaleFloat (fuel : Nat) (x : Float) (power : Int) : Option Float :=
  match fuel with
  | 0 => some x
  | fuel + 1 =>
    if power.natAbs ≤ 308 then
      let unit := Float.ofScientific 1 false power.natAbs
      if 0 ≤ power then
        let y := x * unit
        if y.isInf then none else some y
      else some (x / unit)
    else if x == 0.0 then some x
    else if 0 ≤ power then none
    else scaleFloat fuel (x / 1e308) (power + 308)

/-- The float of a sign, a 64-bit integer and a power of ten. -/
def makeFloat (negative : Bool) (digits : Nat) (power : Int) (rest : List Char) :
    Except Fault (Json × List Char) :=
  match scaleFloat (power.natAbs / 308 + 2) digits.toUInt64.toFloat power with
  | none => .error (behind .numberOutOfRange rest)
  | some x => .ok (.float (if negative then -x else x), rest)

/-- Takes digits into `value` while it fits in 64 bits; returns the number of digits taken. -/
def takeDigits (value count : Nat) : List Char → Nat × Nat × List Char
  | c :: rest =>
    if c.isDigit then
      let next := 10 * value + (c.toNat - 48)
      if next < UInt64.size then takeDigits next (count + 1) rest else (value, count, c :: rest)
    else (value, count, c :: rest)
  | [] => (value, count, [])

/-- The exponent after its `e`, added to `power`. -/
def readExponent (negative : Bool) (digits : Nat) (power : Int) (rest : List Char) :
    Except Fault (Json × List Char) :=
  let (down, rest) :=
    match rest with
    | '+' :: r => (false, r)
    | '-' :: r => (true, r)
    | r => (false, r)
  match rest with
  | [] => .error (behind .endInValue rest)
  | c :: r =>
    if c.isDigit then
      let written := rest.takeWhile Char.isDigit
      let after := rest.dropWhile Char.isDigit
      let value := Text.digitsValue written
      if value < Nat.pow 2 31 then
        makeFloat negative digits (power + if down then -(value : Int) else value) after
      else if digits = 0 ∨ down then .ok (.float (if negative then -0.0 else 0.0), after)
      else .error (behind .numberOutOfRange after)
    else .error (behind .invalidNumber r)

/-- The fraction after its point. -/
def readFraction (negative : Bool) (digits : Nat) (power : Int) (rest : List Char) :
    Except Fault (Json × List Char) :=
  let (value, count, after) := takeDigits digits 0 rest
  if count = 0 ∧ !(after.head?.any Char.isDigit) then
    .error (match after with
      | [] => behind .endInValue after
      | _ => atNext .invalidNumber after)
  else
    let after := after.dropWhile Char.isDigit
    let power := power - count
    match after with
    | 'e' :: r | 'E' :: r => readExponent negative value power r
    | _ => makeFloat negative value power after

/-- The rest of a number whose leading digits are `digits`, `dropped` more of which did not
fit in 64 bits. -/
def readTail (negative : Bool) (digits : Nat) (dropped : Nat) (rest : List Char) :
    Except Fault (Json × List Char) :=
  match rest with
  | '.' :: r => readFraction negative digits dropped r
  | 'e' :: r | 'E' :: r => readExponent negative digits dropped r
  | _ =>
    if 0 < dropped then makeFloat negative digits dropped rest
    else if !negative then .ok (.int digits, rest)
    else if 0 < digits ∧ digits ≤ Nat.pow 2 63 then .ok (.int (-(digits : Int)), rest)
    else .ok (.float (-digits.toUInt64.toFloat), rest)

/-- A number after its sign. -/
def readNumber (negative : Bool) : Reader Json
  | [] => .error (behind .endInValue [])
  | '0' :: rest =>
    if rest.head?.any Char.isDigit then .error (atNext .invalidNumber rest)
    else readTail negative 0 0 rest
  | c :: rest =>
    if c.isDigit then
      let (value, _, after) := takeDigits 0 0 (c :: rest)
      let extra := after.takeWhile Char.isDigit
      readTail negative value extra.length (after.drop extra.length)
    else .error (behind .invalidNumber rest)

/-! ## Strings -/

/-- Four hexadecimal digits. -/
def readHex4 : Reader Nat
  | a :: b :: c :: d :: rest =>
    match Text.hexValue? a, Text.hexValue? b, Text.hexValue? c, Text.hexValue? d with
    | some a, some b, some c, some d => .ok (((a * 16 + b) * 16 + c) * 16 + d, rest)
    | _, _, _, _ => .error ⟨.invalidEscape, a :: b :: c :: d :: rest, 4⟩
  | rest => .error ⟨.endInString, rest, byteLength rest⟩

/-- The character of a numbered escape, after its `u`. -/
def readUnicode : Reader Char := fun cs => do
  let (n, rest) ← readHex4 cs
  if 0xdc00 ≤ n ∧ n ≤ 0xdfff then throw (behind .loneSurrogate rest)
  if n < 0xd800 ∨ 0xdbff < n then return (Char.ofNat n, rest)
  match rest with
  | [] => throw (behind .endInString [])
  | '\\' :: rest =>
    match rest with
    | [] => throw (behind .endInString [])
    | 'u' :: rest =>
      let (m, rest) ← readHex4 rest
      if m < 0xdc00 ∨ 0xdfff < m then throw (behind .loneSurrogate rest)
      return (Char.ofNat (0x10000 + (n - 0xd800) * 0x400 + (m - 0xdc00)), rest)
    | rest => throw ⟨.unfinishedSurrogates, rest, 1⟩
  | rest => throw ⟨.unfinishedSurrogates, rest, 1⟩

/-- The character of an escape, after its backslash. -/
def readEscape : Reader Char
  | [] => .error (behind .endInString [])
  | c :: rest =>
    match c with
    | '"' | '\\' | '/' => .ok (c, rest)
    | 'b' => .ok ('\x08', rest)
    | 'f' => .ok ('\x0c', rest)
    | 'n' => .ok ('\n', rest)
    | 'r' => .ok ('\r', rest)
    | 't' => .ok ('\t', rest)
    | 'u' => readUnicode rest
    | _ => .error (behind .invalidEscape rest)

/-- The characters up to the closing quote; `fuel` bounds their number. -/
def readChars : Nat → List Char → Reader String
  | 0, _, cs => .error (behind .endInString cs)
  | _ + 1, _, [] => .error (behind .endInString [])
  | fuel + 1, done, c :: rest =>
    if c = '"' then .ok (String.ofList done.reverse, rest)
    else if c = '\\' then
      match readEscape rest with
      | .error f => .error f
      | .ok (e, rest) => readChars fuel (e :: done) rest
    else if c.toNat < 0x20 then .error (behind .controlCharacter rest)
    else readChars fuel (c :: done) rest

/-- A string after its opening quote. -/
def readString : Reader String := fun cs => readChars (cs.length + 1) [] cs

/-- The letters that are left of a word. -/
def readWord (value : Json) : List Char → Reader Json
  | [], cs => .ok (value, cs)
  | _ :: _, [] => .error (behind .endInValue [])
  | w :: ws, c :: cs =>
    if c = w then readWord value ws cs else .error (behind .expectedWord cs)

/-! ## Values -/

mutual

/-- A value at most `depth` levels deep; `fuel` bounds the number of steps. -/
def readValue (fuel depth : Nat) : Reader Json := fun cs =>
  match fuel, skipBlanks cs with
  | 0, cs => .error (behind .tooDeep cs)
  | _ + 1, [] => .error (atNext .endInValue [])
  | fuel + 1, c :: rest =>
    match c with
    | 'n' => readWord .null ['u', 'l', 'l'] rest
    | 't' => readWord (.bool true) ['r', 'u', 'e'] rest
    | 'f' => readWord (.bool false) ['a', 'l', 's', 'e'] rest
    | '-' => readNumber true rest
    | '"' => (readString rest).map fun (s, rest) => (.str s, rest)
    | '[' =>
      match depth with
      | 0 => .error (atNext .tooDeep (c :: rest))
      | depth + 1 => readItems fuel depth [] rest
    | '{' =>
      match depth with
      | 0 => .error (atNext .tooDeep (c :: rest))
      | depth + 1 => readFields fuel depth [] rest
    | _ =>
      if c.isDigit then readNumber false (c :: rest)
      else .error (atNext .expectedValue (c :: rest))

/-- The items of a list from before a comma or the closing bracket. -/
def readItems (fuel depth : Nat) (done : List Json) : Reader Json := fun cs =>
  match fuel, skipBlanks cs with
  | 0, cs => .error (behind .tooDeep cs)
  | _ + 1, [] => .error (atNext .endInList [])
  | fuel + 1, c :: rest =>
    if c = ']' then .ok (.arr done.reverse, rest)
    else if done.isEmpty then readItem fuel depth done (c :: rest)
    else if c = ',' then
      match skipBlanks rest with
      | [] => .error (atNext .endInValue [])
      | ']' :: rest => .error (atNext .trailingComma (']' :: rest))
      | rest => readItem fuel depth done rest
    else .error (atNext .expectedListEnd (c :: rest))

def readItem (fuel depth : Nat) (done : List Json) : Reader Json := fun cs =>
  match fuel with
  | 0 => .error (behind .tooDeep cs)
  | fuel + 1 =>
    match readValue fuel depth cs with
    | .error f => .error f
    | .ok (item, rest) => readItems fuel depth (item :: done) rest

/-- The fields of an object from before a comma or the closing brace, as written. -/
def readFields (fuel depth : Nat) (done : List (String × Json)) : Reader Json := fun cs =>
  match fuel, skipBlanks cs with
  | 0, cs => .error (behind .tooDeep cs)
  | _ + 1, [] => .error (atNext .endInObject [])
  | fuel + 1, c :: rest =>
    if c = '}' then .ok (.obj done.reverse, rest)
    else if done.isEmpty then readField fuel depth done (c :: rest)
    else if c = ',' then
      match skipBlanks rest with
      | [] => .error (atNext .endInValue [])
      | '}' :: rest => .error (atNext .trailingComma ('}' :: rest))
      | rest => readField fuel depth done rest
    else .error (atNext .expectedObjectEnd (c :: rest))

def readField (fuel depth : Nat) (done : List (String × Json)) : Reader Json := fun cs =>
  match fuel, cs with
  | 0, cs => .error (behind .tooDeep cs)
  | fuel + 1, '"' :: rest =>
    match readString rest with
    | .error f => .error f
    | .ok (name, rest) =>
      match skipBlanks rest with
      | ':' :: rest =>
        match readValue fuel depth rest with
        | .error f => .error f
        | .ok (value, rest) => readFields fuel depth ((name, value) :: done) rest
      | [] => .error (atNext .endInObject [])
      | rest => .error (atNext .expectedColon rest)
  | _ + 1, rest => .error (atNext .keyNotString rest)

end

/-- The value of a whole text, objects as written: fields in their order, a name possibly
more than once. -/
def readRaw (source : String) : Except Fault Json :=
  let cs := source.toList
  match readValue (3 * cs.length + 3) 127 cs with
  | .error f => .error f
  | .ok (value, rest) =>
    match skipBlanks rest with
    | [] => .ok value
    | rest => .error (atNext .trailingCharacters rest)

/-- The value of a whole text. -/
def read (source : String) : Except Fault Json := (readRaw source).map canonical

end ScriptHost.Json

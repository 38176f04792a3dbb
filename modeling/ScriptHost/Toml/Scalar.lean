import ScriptHost.Text.Digit
import ScriptHost.Toml.Value

/-!
# Scalars and names of TOML

Readers of strings, numbers, dates and dotted names. A reader that fails says where, as
the text that is left from there.
-/

namespace ScriptHost.Toml

/-- Takes a part of the text; what it leaves is never longer than what it was given. -/
abbrev Reader (α : Type) := List Char → Except (List Char) (α × List Char)

def isBlank (c : Char) : Bool := c = ' ' || c = '\t'

def skipBlanks (cs : List Char) : List Char := cs.dropWhile isBlank

/-- May the character stand in a comment, and in a literal string? -/
def isPlain (c : Char) : Bool := c = '\t' || (0x20 ≤ c.toNat && c.toNat ≠ 0x7f)

/-- A line feed, alone or after a carriage return. -/
def newline? : List Char → Option (List Char)
  | '\n' :: rest => some rest
  | '\r' :: '\n' :: rest => some rest
  | _ => none

/-- The text after a comment, if one begins here. -/
def skipComment : List Char → List Char
  | '#' :: rest => rest.dropWhile isPlain
  | cs => cs

/-- The end of a line: blanks, a comment perhaps, then a line feed or the end. -/
def endLine : Reader Unit := fun cs =>
  let rest := skipComment (skipBlanks cs)
  match newline? rest with
  | some rest => .ok ((), rest)
  | none => if rest.isEmpty then .ok ((), []) else .error rest

/-- Blanks, comments and line feeds; `fuel` bounds the number of lines. -/
def skipLines : Nat → Reader Unit
  | 0, cs => .ok ((), cs)
  | fuel + 1, cs =>
    match skipBlanks cs with
    | '#' :: rest =>
      let rest := rest.dropWhile isPlain
      match newline? rest with
      | some rest => skipLines fuel rest
      | none => if rest.isEmpty then .ok ((), []) else .error rest
    | rest =>
      match newline? rest with
      | some rest => skipLines fuel rest
      | none => .ok ((), rest)

/-! ## Strings -/

/-- `count` hexadecimal digits as a character. -/
def readScalar (count : Nat) : Reader Char := fun cs =>
  let digits := (cs.take count).filterMap Text.hexValue?
  let n := digits.foldl (fun n d => 16 * n + d) 0
  if digits.length = count ∧ n.isValidChar then .ok (Char.ofNat n, cs.drop count) else .error cs

/-- The character of an escape, after its backslash. -/
def readEscape : Reader Char
  | 'b' :: rest => .ok ('\x08', rest)
  | 't' :: rest => .ok ('\t', rest)
  | 'n' :: rest => .ok ('\n', rest)
  | 'f' :: rest => .ok ('\x0c', rest)
  | 'r' :: rest => .ok ('\r', rest)
  | '"' :: rest => .ok ('"', rest)
  | '\\' :: rest => .ok ('\\', rest)
  | 'u' :: rest => readScalar 4 rest
  | 'U' :: rest => readScalar 8 rest
  | rest => .error rest

/-- A string on one line, after its opening quote. -/
def readBasic (fuel : Nat) (done : List Char) : Reader String := fun cs =>
  match fuel, cs with
  | 0, cs => .error cs
  | _ + 1, [] => .error []
  | fuel + 1, c :: rest =>
    if c = '"' then .ok (String.ofList done.reverse, rest)
    else if c = '\\' then
      match readEscape rest with
      | .error e => .error e
      | .ok (e, rest) => readBasic fuel (e :: done) rest
    else if isPlain c then readBasic fuel (c :: done) rest
    else .error (c :: rest)

/-- A literal string on one line, after its opening quote. -/
def readLiteral : Reader String := fun cs =>
  let body := cs.takeWhile fun c => isPlain c && c ≠ '\''
  match cs.drop body.length with
  | '\'' :: rest => .ok (String.ofList body, rest)
  | rest => .error rest

/-- The quotes at the end of a string of many lines: three close it, and up to two before
them belong to it. -/
def closing? (quote : Char) (cs : List Char) : Option (List Char × List Char) :=
  let run := cs.takeWhile (· = quote)
  if run.length < 3 then none
  else
    let kept := min (run.length - 3) 2
    some (List.replicate kept quote, cs.drop (kept + 3))

/-- The text after a backslash at the end of a line: all blanks and line feeds are passed
over. -/
def continueLine? (cs : List Char) : Option (List Char) :=
  (newline? (skipBlanks cs)).map fun rest =>
    rest.dropWhile fun c => isBlank c || c = '\n' || c = '\r'

/-- A string of many lines, after its opening quotes; `escapes` for the double ones. -/
def readMultiline (quote : Char) (escapes : Bool) (fuel : Nat) (done : List Char) :
    Reader String := fun cs =>
  match fuel, cs with
  | 0, cs => .error cs
  | _ + 1, [] => .error []
  | fuel + 1, c :: rest =>
    match closing? quote (c :: rest), newline? (c :: rest) with
    | some (kept, rest), _ => .ok (String.ofList (done.reverse ++ kept), rest)
    | none, some rest => readMultiline quote escapes fuel ('\n' :: done) rest
    | none, none =>
      if escapes && c = '\\' then
        match continueLine? rest with
        | some rest => readMultiline quote escapes fuel done rest
        | none =>
          match readEscape rest with
          | .error e => .error e
          | .ok (e, rest) => readMultiline quote escapes fuel (e :: done) rest
      else if isPlain c then readMultiline quote escapes fuel (c :: done) rest
      else .error (c :: rest)

/-- A string of any of the four kinds, from its first quote. -/
def readString : Reader String
  | '"' :: '"' :: '"' :: rest =>
    let rest := (newline? rest).getD rest
    readMultiline '"' true (rest.length + 1) [] rest
  | '\'' :: '\'' :: '\'' :: rest =>
    let rest := (newline? rest).getD rest
    readMultiline '\'' false (rest.length + 1) [] rest
  | '"' :: rest => readBasic (rest.length + 1) [] rest
  | '\'' :: rest => readLiteral rest
  | rest => .error rest

/-! ## Names -/

def isBare (c : Char) : Bool := c.isAlphanum || c = '_' || c = '-'

/-- One name, bare or quoted. -/
def readName : Reader Key := fun cs =>
  match cs with
  | '"' :: rest =>
    (readBasic (rest.length + 1) [] rest).map fun (s, after) => (⟨s, cs.length⟩, after)
  | '\'' :: rest => (readLiteral rest).map fun (s, after) => (⟨s, cs.length⟩, after)
  | _ =>
    let body := cs.takeWhile isBare
    if body.isEmpty then .error cs else .ok (⟨String.ofList body, cs.length⟩, cs.drop body.length)

/-- Names with dots between them, blanks around each allowed. -/
def readKey (fuel : Nat) (done : List Key) : Reader (List Key) := fun cs =>
  match fuel with
  | 0 => .error cs
  | fuel + 1 =>
    match readName (skipBlanks cs) with
    | .error e => .error e
    | .ok (key, rest) =>
      match skipBlanks rest with
      | '.' :: rest => readKey fuel (key :: done) rest
      | rest => .ok ((key :: done).reverse, rest)

/-! ## Numbers and dates -/

/-- Digits of a class with single underscores between them. -/
def digitRun (isDigit : Char → Bool) (cs : List Char) : List Char × List Char :=
  match cs with
  | c :: rest => if isDigit c then (fun (ds, r) => (c :: ds, r)) (more rest) else ([], cs)
  | [] => ([], [])
where
  more : List Char → List Char × List Char
    | '_' :: c :: rest =>
      if isDigit c then (fun (ds, r) => (c :: ds, r)) (more rest) else ([], '_' :: c :: rest)
    | c :: rest => if isDigit c then (fun (ds, r) => (c :: ds, r)) (more rest) else ([], c :: rest)
    | [] => ([], [])

def takeSign : List Char → Bool × List Char
  | '+' :: rest => (false, rest)
  | '-' :: rest => (true, rest)
  | rest => (false, rest)

/-- A run of digits that begins with zero only if it is zero. -/
def decimalRun? (cs : List Char) : Option (List Char × List Char) :=
  match cs with
  | '0' :: rest => some (['0'], rest)
  | _ =>
    let (ds, rest) := digitRun Char.isDigit cs
    if ds.isEmpty then none else some (ds, rest)

/-- An integer in 64 bits. -/
def integer? (cs : List Char) : Option (Int × List Char) :=
  let radix (base : Nat) (isDigit : Char → Bool) (rest : List Char) :=
    let (ds, after) := digitRun isDigit rest
    let n := (ds.filterMap Text.hexValue?).foldl (fun n d => base * n + d) 0
    if ds.isEmpty ∨ Nat.pow 2 63 ≤ n then none else some ((n : Int), after)
  match cs with
  | '0' :: 'x' :: rest => radix 16 (fun c => (Text.hexValue? c).isSome) rest
  | '0' :: 'o' :: rest => radix 8 (fun c => '0' ≤ c && c ≤ '7') rest
  | '0' :: 'b' :: rest => radix 2 (fun c => c = '0' || c = '1') rest
  | _ =>
    let (negative, rest) := takeSign cs
    (decimalRun? rest).bind fun (ds, after) =>
      let n := Text.digitsValue ds
      if negative then if n ≤ Nat.pow 2 63 then some (-(n : Int), after) else none
      else if n < Nat.pow 2 63 then some ((n : Int), after) else none

/-- The text after a float, if one that is finite or a special value begins here. -/
def float? (cs : List Char) : Option (List Char) :=
  let (_, rest) := takeSign cs
  match rest with
  | 'i' :: 'n' :: 'f' :: rest => some rest
  | 'n' :: 'a' :: 'n' :: rest => some rest
  | _ => do
    let (whole, rest) ← decimalRun? rest
    let (fraction, afterFraction) := match rest with
      | '.' :: r => digitRun Char.isDigit r
      | r => ([], r)
    let rest := if fraction.isEmpty then rest else afterFraction
    let (down, power, afterPower) := match rest with
      | 'e' :: r | 'E' :: r =>
        let (down, r) := takeSign r
        let (ds, r) := digitRun Char.isDigit r
        (down, ds, r)
      | r => (false, [], r)
    if fraction.isEmpty ∧ power.isEmpty then none
    else
      let digits := Text.digitsValue (whole ++ fraction)
      let power' : Int := if down then -(Text.digitsValue power : Int) else Text.digitsValue power
      if digits ≠ 0 ∧ 400 < power' + whole.length then none
      else
        let places : Int := power' - fraction.length
        let x := if places < -2000 then 0.0
          else Float.ofScientific digits (places < 0) places.natAbs
        if x.isInf then none else some (if power.isEmpty then rest else afterPower)

/-- `count` digits as a number. -/
def digits? (count : Nat) (cs : List Char) : Option (Nat × List Char) :=
  let ds := cs.take count
  if ds.length = count ∧ ds.all Char.isDigit then some (Text.digitsValue ds, cs.drop count)
  else none

def monthLength (year month : Nat) : Nat :=
  if month = 2 then
    if year % 4 = 0 ∧ (year % 100 ≠ 0 ∨ year % 400 = 0) then 29 else 28
  else if month = 4 ∨ month = 6 ∨ month = 9 ∨ month = 11 then 30
  else 31

/-- The text after a time of day. -/
def time? (cs : List Char) : Option (List Char) := do
  let (hour, rest) ← digits? 2 cs
  let .some (':' :: rest) := some rest | none
  let (minute, rest) ← digits? 2 rest
  let .some (':' :: rest) := some rest | none
  let (second, rest) ← digits? 2 rest
  if 23 < hour ∨ 59 < minute ∨ 60 < second then none
  else
    match rest with
    | '.' :: r =>
      let ds := r.takeWhile Char.isDigit
      if ds.isEmpty then some rest else some (r.drop ds.length)
    | _ => some rest

/-- The text after an offset from universal time, if one stands here. -/
def offset? : List Char → Option (List Char)
  | 'Z' :: rest => some rest
  | 'z' :: rest => some rest
  | sign :: rest =>
    if sign = '+' ∨ sign = '-' then do
      let (hour, rest) ← digits? 2 rest
      let .some (':' :: rest) := some rest | none
      let (minute, rest) ← digits? 2 rest
      if 23 < hour ∨ 59 < minute then none else some rest
    else none
  | [] => none

/-- The text after a date, a time, or both. -/
def date? (cs : List Char) : Option (List Char) :=
  match digits? 4 cs with
  | some (year, '-' :: rest) => do
    let (month, rest) ← digits? 2 rest
    let .some ('-' :: rest) := some rest | none
    let (day, rest) ← digits? 2 rest
    if month < 1 ∨ 12 < month ∨ day < 1 ∨ monthLength year month < day then none
    else
      match rest with
      | c :: r =>
        if c = 'T' ∨ c = 't' ∨ c = ' ' then
          match time? r with
          | some after => some ((offset? after).getD after)
          | none => if c = ' ' then some rest else none
        else some rest
      | [] => some rest
  | _ => time? cs

end ScriptHost.Toml

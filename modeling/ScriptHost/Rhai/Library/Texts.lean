import ScriptHost.Rhai.Library.Answer
import ScriptHost.Text.Case

/-!
# Functions of texts and characters
-/

namespace ScriptHost.Rhai.Texts

open Answer

/-- The place of a text in another one, in characters from `start` on. -/
def find? (cs part : List Char) (start : Nat) : Option Nat :=
  (List.range (cs.length - start + 1)).findSome? fun k =>
    if part.isPrefixOf (cs.drop (start + k)) then some (start + k) else none

def found (n : Option Nat) : Option Answered :=
  int (match n with
    | some n => n
    | none => -1)

/-- The part of a text from a start on. -/
def slice (s : String) (start count : Int) : String :=
  let cs := s.toList
  let (first, n) := window cs.length start count
  String.ofList ((cs.drop first).take n)

def texts (ss : List String) : Option Answered := give (.array (ss.map Value.text))

/-- The integer that a text writes in a base. -/
def parseInt (s : String) (base : Nat) : Option Answered :=
  let t := Text.trim s
  let (negative, ds) := match t.toList with
    | '-' :: ds => (true, ds)
    | '+' :: ds => (false, ds)
    | ds => (false, ds)
  let problem (why : String) : Option Answered :=
    fail (.arithmetic ("Error parsing integer number '" ++ s ++ "': " ++ why))
  if ds = [] then problem (if t = "" then "cannot parse integer from empty string"
    else "invalid digit found in string")
  else if ds.all (Token.isDigitOf base) then
    let n : Int := ds.foldl (fun n c => base * n + (Text.hexValue? c).getD 0) (0 : Nat)
    let n := if negative then -n else n
    if Int64.maxValue.toInt < n then problem "number too large to fit in target type"
    else if n < Int64.minValue.toInt then problem "number too small to fit in target type"
    else int n
  else problem "invalid digit found in string"

/-- The float that a text writes. -/
def parseFloat (s : String) : Option Answered :=
  let t := (Text.trim s).toList
  let (negative, body) := match t with
    | '-' :: ds => (true, ds)
    | '+' :: ds => (false, ds)
    | ds => (false, ds)
  match body with
  | c :: _ =>
    if c.isDigit then
      match Token.number negative body with
      | (.int n, k) => if k = body.length then give (.float n.toFloat) else wrong
      | (.float x, k) => if k = body.length then give (.float x) else wrong
      | _ => wrong
    else wrong
  | [] => wrong
where
  wrong : Option Answered :=
    fail (.arithmetic ("Error parsing floating-point number '" ++ s ++ "': invalid float literal"))

/-- A function of a text, with its other arguments. -/
def ofText? (s : String) (name : String) (args : List Value) : Option Answered :=
  let cs := s.toList
  let length := cs.length
  match name, args with
  | "len", [] => int length
  | "is_empty", [] => bool (s = "")
  | "bytes", [] => int s.utf8ByteSize
  | "to_upper", [] => text (Text.upper s)
  | "to_lower", [] => text (Text.lower s)
  | "make_upper", [] => change (.text (Text.upper s))
  | "make_lower", [] => change (.text (Text.lower s))
  | "trim", [] => change (.text (Text.trim s))
  | "clear", [] => change (.text "")
  | "contains", [v] => (Operation.contains? (.text s) v).map fun b => .ok { value := .bool b }
  | "starts_with", [.text t] => bool (t.toList.isPrefixOf cs)
  | "ends_with", [.text t] => bool (t.toList.isSuffixOf cs)
  | "index_of", [v] => (Operation.textOf? v).bind fun t => found (find? cs t.toList 0)
  | "index_of", [v, .int k] =>
    (Operation.textOf? v).bind fun t => found (find? cs t.toList (window length k.toInt 1).1)
  | "sub_string", [.int a] => text (slice s a.toInt length)
  | "sub_string", [.int a, .int n] => text (slice s a.toInt n.toInt)
  | "sub_string", [.range a b c] => text (slice s (rangeWindow a b c).1 (rangeWindow a b c).2)
  | "crop", [.int a] => change (.text (slice s a.toInt length))
  | "crop", [.int a, .int n] => change (.text (slice s a.toInt n.toInt))
  | "crop", [.range a b c] => change (.text (slice s (rangeWindow a b c).1 (rangeWindow a b c).2))
  | "truncate", [.int n] => change (.text (slice s 0 n.toInt))
  | "replace", [a, b] =>
    match Operation.textOf? a, Operation.textOf? b with
    | some t, some u => change (.text (if t = "" then s else u.intercalate (s.splitOn t)))
    | _, _ => none
  | "pad", [.int n, v] =>
    (Operation.textOf? v).bind fun t =>
      let missing := n.toInt.toNat - length
      let filler := (List.replicate missing t.toList).flatten.take missing
      change (.text (s ++ String.ofList filler))
  | "append", [v] => change (.text (s ++ v.plainText))
  | "pop", [] =>
    match cs.getLast? with
    | some c => both (.char c) (.text (String.ofList cs.dropLast))
    | none => give .unit
  | "remove", [v] =>
    (Operation.textOf? v).bind fun t => change (.text (Operation.without s t))
  | "chars", [] | "to_chars", [] => give (.array (cs.map Value.char))
  | "split", [] => texts ((Text.words cs).map String.ofList)
  | "split", [.int k] =>
    let n := (window length k.toInt 1).1
    texts [String.ofList (cs.take n), String.ofList (cs.drop n)]
  | "split", [v] => (Operation.textOf? v).bind fun t => texts (s.splitOn t)
  | "get", [.int k] =>
    match place? length k.toInt with
    | some n => give ((cs[n]?.map Value.char).getD .unit)
    | none => give .unit
  | "parse_int", [] => parseInt s 10
  | "parse_int", [.int b] => parseInt s b.toInt.toNat
  | "parse_float", [] => parseFloat s
  | _, _ => none

/-- A function of a character, with its other arguments. -/
def ofChar? (c : Char) (name : String) (args : List Value) : Option Answered :=
  match name, args with
  | "to_upper", [] => give (.char (Text.upperChar c))
  | "to_lower", [] => give (.char (Text.lowerChar c))
  | "make_upper", [] => change (.char (Text.upperChar c))
  | "make_lower", [] => change (.char (Text.lowerChar c))
  | "to_int", [] => int c.toNat
  | _, _ => none

end ScriptHost.Rhai.Texts

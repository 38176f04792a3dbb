import ScriptHost.Rhai.Library.Answer

/-!
# Functions of arrays, maps and ranges

Those that call functions of a script are where scripts are run.
-/

namespace ScriptHost.Rhai.Collections

open Answer

/-- The items from a start on. -/
def slice (items : List Value) (start count : Int) : List Value :=
  let (first, n) := window items.length start count
  (items.drop first).take n

/-- The items without those from a start on. -/
def cut (items : List Value) (start count : Int) : List Value :=
  let (first, n) := window items.length start count
  items.take first ++ items.drop (first + n)

/-- The items with others in place of those from a start on. -/
def spliced (items : List Value) (start count : Int) (others : List Value) : List Value :=
  let (first, n) := window items.length start count
  items.take first ++ others ++ items.drop (first + n)

/-- Where an item is put: counted from the end if negative, behind the last at most. -/
def insertionPlace (length : Nat) (i : Int) : Nat :=
  min length (if i < 0 then (length + i).toNat else i.toNat)

/-- The items without those that equal the one before. -/
def withoutRepeats : List Value → List Value
  | a :: b :: rest =>
    if Operation.equal a b then withoutRepeats (a :: rest) else a :: withoutRepeats (b :: rest)
  | items => items
termination_by items => items.length

/-- Is a value before another one or equal to it? -/
def ordered (a b : Value) : Bool := (Operation.comparison "<=" a b).getD true

/-- A function of an array, with its other arguments. -/
def ofArray? (items : List Value) (name : String) (args : List Value) : Option Answered :=
  let length := items.length
  match name, args with
  | "len", [] => int length
  | "is_empty", [] => bool items.isEmpty
  | "push", [v] => change (.array (items ++ [v]))
  | "append", [.array others] => change (.array (items ++ others))
  | "insert", [.int i, v] =>
    let n := insertionPlace length i.toInt
    change (.array (items.take n ++ v :: items.drop n))
  | "pop", [] =>
    match items.getLast? with
    | some v => both v (.array items.dropLast)
    | none => give .unit
  | "shift", [] =>
    match items with
    | v :: rest => both v (.array rest)
    | [] => give .unit
  | "remove", [.int i] =>
    match place? length i.toInt with
    | some n => both ((items[n]?).getD .unit) (.array (items.eraseIdx n))
    | none => give .unit
  | "get", [.int i] => give (((place? length i.toInt).bind fun n => items[n]?).getD .unit)
  | "set", [.int i, v] =>
    match place? length i.toInt with
    | some n => change (.array (items.set n v))
    | none => fail (.itemBounds length i.toInt)
  | "reverse", [] => change (.array items.reverse)
  | "clear", [] => change (.array [])
  | "truncate", [.int n] => change (.array (slice items 0 n.toInt))
  | "chop", [.int n] => change (.array (items.drop (length - n.toInt.toNat)))
  | "pad", [.int n, v] => change (.array (items ++ List.replicate (n.toInt.toNat - length) v))
  | "extract", [.int a] => give (.array (slice items a.toInt length))
  | "extract", [.int a, .int n] => give (.array (slice items a.toInt n.toInt))
  | "extract", [.range a b c] =>
    give (.array (slice items (rangeWindow a b c).1 (rangeWindow a b c).2))
  | "drain", [.range a b c] =>
    let (start, n) := rangeWindow a b c
    both (.array (slice items start n)) (.array (cut items start n))
  | "drain", [.int a, .int n] =>
    both (.array (slice items a.toInt n.toInt)) (.array (cut items a.toInt n.toInt))
  | "retain", [.range a b c] =>
    let (start, n) := rangeWindow a b c
    both (.array (cut items start n)) (.array (slice items start n))
  | "splice", [.range a b c, .array others] =>
    change (.array (spliced items (rangeWindow a b c).1 (rangeWindow a b c).2 others))
  | "splice", [.int a, .int n, .array others] =>
    change (.array (spliced items a.toInt n.toInt others))
  | "split", [.int i] =>
    let n := insertionPlace length i.toInt
    both (.array (items.drop n)) (.array (items.take n))
  | "contains", [v] => bool (items.any (Operation.equal v))
  | "index_of", [v] =>
    match v with
    | .function _ _ => none
    | v =>
      int (match items.findIdx? (Operation.equal v) with
        | some n => n
        | none => -1)
  | "dedup", [] => change (.array (withoutRepeats items))
  | "sort", [] => change (.array (items.mergeSort ordered))
  | _, _ => none

/-- The fields without one. -/
def withoutField (fields : List (String × Value)) (name : String) : List (String × Value) :=
  fields.filter fun field => field.1 ≠ name

/-- A function of a map, with its other arguments. -/
def ofMap? (fields : List (String × Value)) (name : String) (args : List Value) :
    Option Answered :=
  match name, args with
  | "len", [] => int fields.length
  | "is_empty", [] => bool fields.isEmpty
  | "keys", [] => give (.array (fields.map fun field => .text field.1))
  | "values", [] => give (.array (fields.map (·.2)))
  | "contains", [.text s] => bool (fields.lookup s).isSome
  | "get", [.text s] => give ((fields.lookup s).getD .unit)
  | "set", [.text s, v] => change (.map (Json.insertField s v fields))
  | "remove", [.text s] =>
    match fields.lookup s with
    | some v => both v (.map (withoutField fields s))
    | none => give .unit
  | "clear", [] => change (.map [])
  | "mixin", [.map others] => change (.map (Operation.mixed fields others))
  | "fill_with", [.map others] => change (.map (Operation.mixed others fields))
  | _, _ => none

/-- A function of a range, with its other arguments. -/
def ofRange? (first last : Int64) (closed : Bool) (name : String) (args : List Value) :
    Option Answered :=
  match name, args with
  | "contains", [.int n] => bool (first ≤ n && (if closed then n ≤ last else n < last))
  | "is_empty", [] => bool (if closed then last < first else last ≤ first)
  | "is_inclusive", [] => bool closed
  | "is_exclusive", [] => bool !closed
  | "start", [] => give (.int first)
  | "end", [] => give (.int last)
  | _, _ => none

/-- The integers from one on, so many, in steps. -/
def steps (first step : Int) : Nat → List Value
  | 0 => []
  | n + 1 => .int (.ofInt first) :: steps (first + step) step n

/-- The integers of a range. -/
def rangeItems (first last : Int64) (closed : Bool) : List Value :=
  steps first.toInt 1 (rangeWindow first last closed).2.toNat

/-- The integers up to a limit that is not reached, in steps. -/
def stepped (first last step : Int) : List Value :=
  if 0 < step then steps first step ((last - first + step - 1) / step).toNat
  else if step < 0 then steps first step ((first - last - step - 1) / (-step)).toNat
  else []

end ScriptHost.Rhai.Collections

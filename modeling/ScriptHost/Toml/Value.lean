/-!
# TOML documents

A document is a table of named values. Every value knows where it stands, as the number
of characters left from there to the end of the text; a table that only came about as the
way to another one stands where its name does.

Tables are filled under rules that keep a document free of contradictions: no name twice,
a table opened by a header is opened once and not extended by dotted names, and a value
that is not a table has nothing below it. `insert`, `openTable` and `pushTable` are
these rules; each fails on a conflict.
-/

namespace ScriptHost.Toml

/-- How a table came about: by its own header or as an element of a list of tables, as the
way of a header to another table, by a dotted name, or written inline. -/
inductive Origin where
  | header
  | implied
  | dotted
  | written
  deriving DecidableEq

inductive Value where
  | string (s : String)
  | integer (n : Int)
  | boolean (b : Bool)
  | float
  | date
  | array (items : List (Nat × Value))
  | table (origin : Origin) (fields : List (String × Nat × Value))
  | tables (elements : List (Nat × List (String × Nat × Value)))

/-- A field is a name, the place of its value and the value. -/
abbrev Field := String × Nat × Value

abbrev Fields := List Field

/-- A name with its place. -/
structure Key where
  name : String
  place : Nat

namespace Fields

def find? (fields : Fields) (name : String) : Option (Nat × Value) := fields.lookup name

/-- Replaces the field of a name, or adds it at the end. -/
def set (fields : Fields) (name : String) (place : Nat) (value : Value) : Fields :=
  match fields with
  | [] => [(name, place, value)]
  | (other, old) :: rest =>
    if other = name then (name, place, value) :: rest
    else (other, old) :: set rest name place value

def erase (fields : Fields) (name : String) : Fields := fields.filter (·.1 ≠ name)

/-- Changes the table at the end of `path`, making tables of `origin` on the way where there
are none. A list of tables is entered at its last element. With `.dotted` the way leads
through no table that has a header. -/
def descend (origin : Origin) (change : Origin → Fields → Option Fields) (here : Origin)
    (fields : Fields) : List Key → Option Fields
  | [] => change here fields
  | key :: path =>
    match fields.find? key.name with
    | none => do
      let inner ← descend origin change origin [] path
      return fields.set key.name key.place (.table origin inner)
    | some (place, .table found inner) =>
      if found = .written ∨ (origin = .dotted ∧ found = .header) then none
      else do
        let inner ← descend origin change found inner path
        return fields.set key.name place (.table found inner)
    | some (place, .tables elements) =>
      match elements.getLast? with
      | none => none
      | some (last, inner) => do
        let inner ← descend origin change .header inner path
        return fields.set key.name place (.tables (elements.dropLast ++ [(last, inner)]))
    | some _ => none

/-- Adds a value under a dotted name. The table that takes it is the one the path starts
from, if the name is simple, or one that dotted names made. -/
def insert (fields : Fields) (path : List Key) (name : String) (place : Nat) (value : Value) :
    Option Fields :=
  descend .dotted (fun here inner =>
    if path.isEmpty = (here = .dotted) ∨ (inner.find? name).isSome then none
    else some (inner.set name place value)) .header fields path

/-- Takes out the table that a header opens: the one that headers of tables below it have
implied, or an empty one. -/
def openTable (fields : Fields) (path : List Key) (name : String) : Option (Fields × Fields) := do
  let mut taken : Fields := []
  let changed ← descend .implied (fun _ inner =>
    match inner.find? name with
    | none | some (_, .table .implied _) => some (inner.erase name)
    | some _ => none) .header fields path
  let found := lookup fields (path.map Key.name)
  match found.bind (find? · name) with
  | some (_, .table .implied inner) => taken := inner
  | _ => pure ()
  return (changed, taken)
where
  /-- The fields of the table at the end of a path. -/
  lookup (fields : Fields) : List String → Option Fields
    | [] => some fields
    | name :: path =>
      match fields.find? name with
      | some (_, .table _ inner) => lookup inner path
      | some (_, .tables elements) => (elements.getLast?).bind fun e => lookup e.2 path
      | _ => none

/-- Checks that a header of a list of tables can stand, and makes the list if it is new. -/
def openList (fields : Fields) (path : List Key) (key : Key) : Option Fields :=
  descend .implied (fun _ inner =>
    match inner.find? key.name with
    | none => some (inner.set key.name key.place (.tables []))
    | some (_, .tables _) => some inner
    | some _ => none) .header fields path

/-- Puts a table that is complete at its place. -/
def closeTable (fields : Fields) (path : List Key) (name : String) (place : Nat)
    (table : Fields) : Option Fields :=
  descend .implied (fun _ inner =>
    match inner.find? name with
    | none => some (inner.set name place (.table .header table))
    | some (_, .table .implied _) => some (inner.set name place (.table .header table))
    | some _ => none) .header fields path

/-- Puts a table that is complete at the end of its list. -/
def pushTable (fields : Fields) (path : List Key) (name : String) (place : Nat)
    (table : Fields) : Option Fields :=
  descend .implied (fun _ inner =>
    match inner.find? name with
    | none => some (inner.set name place (.tables [(place, table)]))
    | some (_, .tables []) => some (inner.set name place (.tables [(place, table)]))
    | some (first, .tables elements) =>
      some (inner.set name first (.tables (elements ++ [(place, table)])))
    | some _ => none) .header fields path

end Fields

end ScriptHost.Toml

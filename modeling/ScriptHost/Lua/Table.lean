import ScriptHost.Lua.Value

/-!
# Tables

A table has a list of items under 1, 2, … and fields under all other keys, in the order in
which they came. A field that is set to nil keeps its place, so that a walk over the table
can go on behind it.
-/

namespace ScriptHost.Lua

structure Table where
  items : Array Value := #[]
  fields : Array (Value × Value) := #[]
  metatable : Option Nat := none

instance : Inhabited Table := ⟨{}⟩

namespace Table

/-- The place among the items that a key names. -/
def place? : Value → Option Nat
  | .number n => n.toInt?.bind fun k => if 1 ≤ k then some (k.toInt.toNat - 1) else none
  | _ => none

/-- The value of a field. -/
def field (t : Table) (key : Value) : Value :=
  match t.fields.find? fun field => field.1.rawEquals key with
  | some (_, v) => v
  | none => .nil

/-- The value under a key, nil if there is none. -/
def get (t : Table) (key : Value) : Value :=
  match place? key with
  | some i => if h : i < t.items.size then t.items[i] else t.field key
  | none => t.field key

/-- The value under a string. -/
def getString (t : Table) (key : Bytes) : Value := t.field (.string key)

/-- Sets a field; a new one comes last. -/
def setField (t : Table) (key value : Value) : Table :=
  match t.fields.findIdx? fun field => field.1.rawEquals key with
  | some i => { t with fields := t.fields.setIfInBounds i (key.asKey, value) }
  | none => if value.isNil then t else { t with fields := t.fields.push (key.asKey, value) }

/-- Takes the fields that follow on the items among the items. -/
def adopt : Nat → Table → Table
  | 0, t => t
  | fuel + 1, t =>
    let key := Value.ofNat (t.items.size + 1)
    match t.field key with
    | .nil => t
    | v => adopt fuel { (t.setField key .nil) with items := t.items.push v }

/-- Sets the value under a key. -/
def set (t : Table) (key value : Value) : Table :=
  match place? key with
  | some i =>
    if i < t.items.size then { t with items := t.items.setIfInBounds i value }
    else if i = t.items.size ∧ !value.isNil then
      let t := { t with items := t.items.push value }
      if t.fields.isEmpty then t
      else adopt t.fields.size (t.setField key .nil)
    else t.setField key value
  | none => t.setField key value

/-- The place of an item that is there while the next one is not, between one that is and one
that is not. -/
def border (items : Array Value) : Nat → Nat → Nat → Nat
  | 0, low, _ => low
  | fuel + 1, low, high =>
    if high - low ≤ 1 then low
    else
      let middle := (low + high) / 2
      if (items.getD (middle - 1) .nil).isNil then border items fuel low middle
      else border items fuel middle high

/-- The length: a place with a value whose successor has none, or zero. -/
def length (t : Table) : Nat :=
  match t.items.back? with
  | none => 0
  | some last =>
    if last.isNil then
      if t.items.size ≥ 2 ∧ !(t.items.getD (t.items.size - 2) .nil).isNil then t.items.size - 1
      else border t.items t.items.size 0 t.items.size
    else t.items.size

/-- All keys with their values, the items first. -/
def pairs (t : Table) : List (Value × Value) :=
  let items := (t.items.toList.zipIdx 1).map fun (v, i) => (Value.ofNat i, v)
  (items ++ t.fields.toList).filter fun pair => !pair.2.isNil

/-- The first pair from a place of the walk on: the items come first, then the fields. -/
def pairFrom (t : Table) : Nat → Nat → Option (Value × Value)
  | 0, _ => none
  | fuel + 1, i =>
    if i < t.items.size then
      let v := t.items.getD i .nil
      if v.isNil then pairFrom t fuel (i + 1) else some (.ofNat (i + 1), v)
    else
      match t.fields[i - t.items.size]? with
      | none => none
      | some (k, v) => if v.isNil then pairFrom t fuel (i + 1) else some (k, v)

/-- The place of the walk behind a key; none if the table never had it. -/
def placeAfter? (t : Table) (key : Value) : Option Nat :=
  let byField := (t.fields.findIdx? fun field => field.1.rawEquals key).map fun i =>
    t.items.size + i + 1
  match place? key with
  | some i => if i < t.items.size then some (i + 1) else byField
  | none => byField

/-- The pair that follows on a key, or the first one after nil. The outer option says whether
the table knows the key. -/
def next? (t : Table) (key : Value) : Option (Option (Value × Value)) :=
  let size := t.items.size + t.fields.size + 1
  match key with
  | .nil => some (t.pairFrom size 0)
  | key => (t.placeAfter? key).map (t.pairFrom size)

/-- The table with fields set under strings. -/
def withFields (t : Table) (fields : List (String × Value)) : Table :=
  fields.foldl (fun t (name, v) => t.setField (.string name) v) t

/-- A table with these fields under strings. -/
def ofFields (fields : List (String × Value)) : Table := withFields {} fields

end Table

end ScriptHost.Lua

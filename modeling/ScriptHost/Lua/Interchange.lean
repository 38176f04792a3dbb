import ScriptHost.Invocation
import ScriptHost.Lua.Store

/-!
# JSON and values

JSON comes into a store as tables. A list gets a metatable of its own, so that an empty one
is still a list on the way back; null is a value that is not nil. Integers that do not fit
are floats.
-/

namespace ScriptHost.Lua

namespace Store

mutual

/-- A JSON value as a value of the store. -/
def ofJson (s : Store) : Json → Store × Value
  | .null => (s, .null)
  | .bool b => (s, .bool b)
  | .int n =>
    if n ≤ Int64.maxValue.toInt then (s, .int (.ofInt n))
    else (s, .float (Double.ofRatio false ⟨n.toNat, 1⟩))
  | .float x => (s, .float x)
  | .str t => (s, .string (Bytes.ofString t))
  | .arr items =>
    let (s, vs) := ofJsonItems s items
    s.newTable { items := vs.toArray, metatable := some listMeta }
  | .obj fields =>
    let (s, vs) := ofJsonFields s fields
    s.newTable { fields := vs.toArray }

def ofJsonItems (s : Store) : List Json → Store × List Value
  | [] => (s, [])
  | item :: rest =>
    let (s, v) := ofJson s item
    let (s, vs) := ofJsonItems s rest
    (s, v :: vs)

def ofJsonFields (s : Store) : List (String × Json) → Store × List (Value × Value)
  | [] => (s, [])
  | (name, item) :: rest =>
    let (s, v) := ofJson s item
    let (s, vs) := ofJsonFields s rest
    (s, (.string (Bytes.ofString name), v) :: vs)

end

/-- Why a value is no JSON. -/
inductive NotJson where
  | unsupported (type : String)
  | recursive
  | bytes
  | key (shown : String)
  deriving DecidableEq

def NotJson.message : NotJson → String
  | .unsupported type => "unsupported value type \x60" ++ type ++ "\x60"
  | .recursive => "recursive table detected"
  | .bytes => "invalid type: byte array, expected any valid JSON value"
  | .key shown => "invalid type: " ++ shown ++ ", expected a string key"

/-- The name of a field from its key. -/
def fieldName (key : Value) (isList : Bool) : Except NotJson String :=
  match key with
  | .string bs =>
    match bs.text? with
    | some name => .ok name
    | none => .error (.key "byte array")
  | .bool b => .error (.key ("boolean \x60" ++ toString b ++ "\x60"))
  | .number (.int n) => .error (.key ("integer \x60" ++ toString n.toInt ++ "\x60"))
  | .number (.float x) =>
    .error (.key ("floating point \x60" ++ String.ofList (Number.floatText x) ++ "\x60"))
  | .table _ => .error (.key (if isList then "sequence" else "map"))
  | .null => .error (.key "Option value")
  | .nil => .error (.key "unit value")
  | .closure _ | .builtin _ => .error (.unsupported "function")
  | .thread _ => .error (.unsupported "thread")
  | .failure _ => .error (.unsupported "error")

/-- Is a table a list? It is if it has items, or if it came in as one. -/
def isList (t : Table) : Bool := 0 < t.length || t.metatable == some listMeta

/-- Is a key a table that is a list? -/
def isListKey (s : Store) : Value → Bool
  | .table a => isList (s.table a)
  | _ => false

/-- The items of a list, up to the first that is nil. -/
def itemsOf (t : Table) : List Value := t.items.toList.takeWhile fun v => !v.isNil

/-- A field as JSON, with a conversion for its value. -/
def fieldToJson (s : Store) (convert : Value → Except NotJson Json) (field : Value × Value) :
    Except NotJson (String × Json) := do
  let name ← fieldName field.1 (isListKey s field.1)
  return (name, ← convert field.2)

/-- A table as JSON, with a conversion for what stands in it. -/
def tableToJson (s : Store) (convert : Value → Except NotJson Json) (t : Table) :
    Except NotJson Json :=
  if isList t then ((itemsOf t).mapM convert).map .arr
  else (t.pairs.mapM (fieldToJson s convert)).map .ofFields

/-- A value as JSON. `path` holds the tables that the value stands in; `fuel` bounds their
number. -/
def toJsonFrom (s : Store) : Nat → List Nat → Value → Except NotJson Json
  | 0, _, _ => .error .recursive
  | fuel + 1, path, v =>
    match v with
    | .nil | .null => .ok .null
    | .bool b => .ok (.bool b)
    | .number (.int n) => .ok (.int n.toInt)
    | .number (.float x) => .ok (if x.isFinite then .float x else .null)
    | .string bs =>
      match bs.text? with
      | some t => .ok (.str t)
      | none => .error .bytes
    | .closure _ | .builtin _ => .error (.unsupported "function")
    | .thread _ => .error (.unsupported "thread")
    | .failure _ => .error (.unsupported "error")
    | .table a =>
      if path.contains a then .error .recursive
      else tableToJson s (toJsonFrom s fuel (a :: path)) (s.table a)

/-- A value as JSON. -/
def toJson (s : Store) (v : Value) : Except NotJson Json :=
  s.toJsonFrom (s.tables.size + 2) [] v

end Store

end ScriptHost.Lua

/-!
# JSON values

The value type that scripts and the host exchange. Integers and floats are different
values; an integer lies between `-2 ^ 63` and `2 ^ 64 - 1`, which every reader of the
library ensures. The fields of an object are kept in ascending order of their names,
each name once.
-/

namespace ScriptHost

inductive Json where
  | null
  | bool (b : Bool)
  | int (n : Int)
  | float (x : Float)
  | str (s : String)
  | arr (items : List Json)
  | obj (fields : List (String × Json))

namespace Json

instance : Inhabited Json := ⟨.null⟩

/-- Puts a field at its place in ascending order, in place of one of the same name. -/
def insertField {α : Type} (name : String) (value : α) : List (String × α) → List (String × α)
  | [] => [(name, value)]
  | (other, old) :: rest =>
    if name = other then (name, value) :: rest
    else if name < other then (name, value) :: (other, old) :: rest
    else (other, old) :: insertField name value rest

/-- Fields in order of name; of fields with one name the last stays. -/
def sortFields {α : Type} (fields : List (String × α)) : List (String × α) :=
  fields.foldl (fun acc (name, value) => insertField name value acc) []

/-- The object of these fields. -/
def ofFields (fields : List (String × Json)) : Json := .obj (sortFields fields)

mutual

/-- The value with the fields of every object in order. -/
def canonical : Json → Json
  | .arr items => .arr (canonicalItems items)
  | .obj fields => .obj (sortFields (canonicalFields fields))
  | other => other

def canonicalItems : List Json → List Json
  | [] => []
  | item :: rest => canonical item :: canonicalItems rest

def canonicalFields : List (String × Json) → List (String × Json)
  | [] => []
  | (name, value) :: rest => (name, canonical value) :: canonicalFields rest

end

/-- The field of an object, if the value is one and has it. -/
def field? (name : String) : Json → Option Json
  | .obj fields => fields.lookup name
  | _ => none

end Json

end ScriptHost

import ScriptHost.Json
import ScriptHost.Log
import ScriptHost.Toml.Document

/-!
# Configuration

The settings come from one TOML document; every field has a default, and fields that
nothing knows are passed over. A table of settings may also be written as an array of its
values in order.
-/

namespace ScriptHost

/-- Where workflows find their automation module. -/
structure Config.Workflow where
  module : String := "workflow_automation"
  entryType : String := "Automation"
  deriving DecidableEq

structure Config.Logging where
  level : String := "info"
  format : Log.Format := .pretty
  file : Option String := none
  deriving DecidableEq

structure Config where
  hostVersion : Nat := 2024
  references : List String := []
  workflow : Config.Workflow := {}
  logging : Config.Logging := {}
  deriving DecidableEq

namespace Config

open Toml

/-- A setting is taken from a value and its place; a value of the wrong kind fails there. -/
abbrev Decoder (α : Type) := Nat → Value → Except Nat α

def asText : Decoder String
  | _, .string s => .ok s
  | place, _ => .error place

def asTexts : Decoder (List String)
  | _, .array items => items.mapM fun (place, item) => asText place item
  | _, .tables ((place, _) :: _) => .error place
  | _, .tables [] => .ok []
  | place, _ => .error place

def asVersion : Decoder Nat
  | place, .integer n => if 0 ≤ n ∧ n < UInt32.size then .ok n.toNat else .error place
  | place, _ => .error place

/-- Is the value empty, as the content of a bare name has to be? -/
def isEmptyValue : Value → Bool
  | .array [] | .table _ [] | .tables [] => true
  | _ => false

/-- A format by its name, which can also be the one field of a table. -/
def asFormat : Decoder Log.Format
  | place, .string s => (Log.Format.ofName? s).elim (.error place) .ok
  | place, .table _ [(name, inner, value)] =>
    match Log.Format.ofName? name with
    | some f => if isEmptyValue value then .ok f else .error inner
    | none => .error place
  | place, _ => .error place

/-- Sets the settings of a group: each field of a table by its name, or each item of an array
by its position. -/
def asGroup {α : Type} (setters : List (String × (α → Decoder α))) (initial : α) : Decoder α
  | _, .table _ fields =>
    fields.foldlM (fun group (name, place, value) =>
      match setters.lookup name with
      | some setter => setter group place value
      | none => .ok group) initial
  | _, .array items => ordered items
  | _, .tables elements =>
    ordered (elements.map fun (place, fields) => (place, .table .header fields))
  | place, _ => .error place
where
  ordered (items : List (Nat × Value)) : Except Nat α :=
    (setters.zip items).foldlM (fun group ((_, setter), (place, value)) =>
      setter group place value) initial

def compilerSetters : List (String × (List String → Decoder (List String))) :=
  [("references", fun _ place value => asTexts place value)]

def workflowSetters : List (String × (Workflow → Decoder Workflow)) :=
  [("module", fun w place value => (asText place value).map fun s => { w with module := s }),
    ("entry_type", fun w place value =>
      (asText place value).map fun s => { w with entryType := s })]

def loggingSetters : List (String × (Logging → Decoder Logging)) :=
  [("level", fun l place value => (asText place value).map fun s => { l with level := s }),
    ("format", fun l place value => (asFormat place value).map fun f => { l with format := f }),
    ("file", fun l place value => (asText place value).map fun s => { l with file := some s })]

def setters : List (String × (Config → Decoder Config)) :=
  [("host_version", fun c place value =>
      (asVersion place value).map fun n => { c with hostVersion := n }),
    ("compiler", fun c place value =>
      (asGroup compilerSetters [] place value).map fun r => { c with references := r }),
    ("workflow", fun c place value =>
      (asGroup workflowSetters {} place value).map fun w => { c with workflow := w }),
    ("logging", fun c place value =>
      (asGroup loggingSetters {} place value).map fun l => { c with logging := l })]

/-- The settings of a document, or the line of its first mistake. -/
def parse (text : String) : Except Nat Config :=
  let source := text.toList
  let parsed : Except Nat Config := match Toml.read source with
    | .error left => .error left
    | .ok fields => asGroup setters {} source.length (.table .header fields)
  parsed.mapError (Toml.lineOf source)

/-- The symbol that compiled sources see for the host. -/
def hostDefine (c : Config) : String := "HOST_" ++ toString c.hostVersion

/-- The settings as a JSON value. -/
def toJson (c : Config) : Json :=
  .obj [("compiler", .obj [("references", .arr (c.references.map .str))]),
    ("host_version", .int c.hostVersion),
    ("logging", .obj [("file", (c.logging.file.map Json.str).getD .null),
      ("format", .str c.logging.format.name), ("level", .str c.logging.level)]),
    ("workflow", .obj [("entry_type", .str c.workflow.entryType),
      ("module", .str c.workflow.module)])]

end Config

end ScriptHost

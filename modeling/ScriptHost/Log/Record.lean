import ScriptHost.Json.Printer
import ScriptHost.Log.Event
import ScriptHost.Text.Quoted

/-!
# Log lines

A record is an event with the run that it is told from. It is written in one of two formats:
as text in a row, or as a JSON object whose fields stand beside the level and the target.
-/

namespace ScriptHost.Log

/-- The run that events are told from. -/
structure Span where
  engine : String
  interface : String
  script : String
  document : String
  deriving DecidableEq

namespace Span

def name : String := "dispatch"

def fields (s : Span) : List (String × String) :=
  [("engine", s.engine), ("interface", s.interface), ("script", s.script),
    ("document", s.document)]

/-- What stands before the target of an event. -/
def heading (s : Span) : String :=
  name ++ "\x7b" ++ " ".intercalate (s.fields.map fun (field, text) => field ++ "=" ++ text) ++
    "\x7d: "

def toJson (s : Span) : Json :=
  .obj (("name", .str name) :: s.fields.map fun (field, text) => (field, .str text))

end Span

structure Record where
  event : Event
  span : Option Span := none
  deriving DecidableEq

/-- One character of a message: those that control a terminal are written by their number. -/
def shownChar (c : Char) : String :=
  let n := c.toNat
  if n = 0x1b ∨ n = 7 ∨ n = 8 ∨ n = 0x0c ∨ n = 0x7f then "\\x" ++ Text.hexPadded 2 n
  else if 0x80 ≤ n ∧ n ≤ 0x9f then "\\u\x7b" ++ Text.hexDigits n ++ "\x7d"
  else c.toString

/-- A message as it is shown. -/
def shown (s : String) : String := String.join (s.toList.map shownChar)

namespace FieldValue

/-- The value as it stands in a row. -/
def text : FieldValue → String
  | quoted s => Text.Quoted.quote s
  | plain s => s
  | number n => toString n

/-- The value without quotes. -/
def bare : FieldValue → String
  | quoted s | plain s => s
  | number n => toString n

def toJson : FieldValue → Json
  | quoted s | plain s => .str s
  | number n => .int n

end FieldValue

/-- The name of a level, from the right in five places. -/
def Level.padded (l : Level) : String :=
  String.ofList (List.replicate (5 - l.name.length) ' ') ++ l.name

namespace Record

/-- A field in a row. A further message stands there without its name. -/
def fieldText : String × FieldValue → String
  | ("message", value) => shown value.bare
  | (name, value) => name ++ "=" ++ value.text

/-- The record as a line of text. -/
def pretty (time : String) (r : Record) : String :=
  time ++ " " ++ r.event.level.padded ++ " " ++ (r.span.map Span.heading).getD "" ++
    r.event.target ++ ": " ++
    " ".intercalate (shown r.event.message :: r.event.fields.map fieldText) ++ "\n"

/-- The record as a JSON object. A field for a message takes the place of the event's own;
`listed` adds the list of the runs around it. -/
def toJson (time : String) (listed : Bool) (r : Record) : Json :=
  let fields := r.event.fields.foldl (fun fs (name, value) => Json.insertField name value.toJson fs)
    [("message", .str r.event.message)]
  let span : List (String × Json) := match r.span with
    | none => []
    | some s => ("span", s.toJson) :: if listed then [("spans", .arr [s.toJson])] else []
  .obj ([("timestamp", .str time), ("level", .str r.event.level.name)] ++ fields ++
    ("target", .str r.event.target) :: span)

/-- The line of a record in a format. -/
def line (format : Format) (time : String) (listed : Bool) (r : Record) : String :=
  match format with
  | .pretty => r.pretty time
  | .json => (r.toJson time listed).render ++ "\n"

end Record

end ScriptHost.Log

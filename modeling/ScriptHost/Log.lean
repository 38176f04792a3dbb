import ScriptHost.Text.Blank
import ScriptHost.Text.Digit

/-!
# Log levels and formats

Levels go by name or by number, one for errors up to five for traces. Formats go by name
without regard to ASCII case; no other character has one of their letters as its lower
case.
-/

namespace ScriptHost.Log

/-- How important a line is; the first is the most important. -/
inductive Level where
  | error
  | warn
  | info
  | debug
  | trace
  deriving DecidableEq, Inhabited

namespace Level

def all : List Level := [error, warn, info, debug, trace]

/-- The number of a level. -/
def number : Level → Nat
  | error => 1
  | warn => 2
  | info => 3
  | debug => 4
  | trace => 5

/-- The name in upper case. -/
def name : Level → String
  | error => "ERROR"
  | warn => "WARN"
  | info => "INFO"
  | debug => "DEBUG"
  | trace => "TRACE"

/-- The number that a text writes: digits after a plus sign at most. -/
def number? (text : String) : Option Nat :=
  let digits := match text.toList with
    | '+' :: rest => rest
    | cs => cs
  if digits ≠ [] ∧ digits.all Char.isDigit then some (Text.digitsValue digits) else none

/-- The level of a name or number exactly as written, up to ASCII case. -/
def ofName? (text : String) : Option Level :=
  match number? text with
  | some n => all.find? fun l => l.number = n
  | none => all.find? fun l => Text.lowerAscii l.name = Text.lowerAscii text

end Level

/-- A text that is no level, or no format. -/
inductive NameError where
  | invalidLevel (text : String)
  | unknownFormat (text : String)
  deriving DecidableEq

def NameError.message : NameError → String
  | .invalidLevel text => "invalid log level: " ++ text
  | .unknownFormat text =>
    "unknown log format: " ++ text ++ ". Expected one of: pretty, json"

/-- The level of a text, blanks around it aside; `warning` is another name for `warn`. -/
def Level.parse (text : String) : Except NameError Level :=
  let plain := Text.lowerAscii (Text.trim text)
  match Level.ofName? (if plain = "warning" then "warn" else plain) with
  | some l => .ok l
  | none => .error (.invalidLevel text)

inductive Format where
  | pretty
  | json
  deriving DecidableEq, Inhabited

def Format.name : Format → String
  | .pretty => "pretty"
  | .json => "json"

def Format.ofName? (text : String) : Option Format :=
  if text = "pretty" then some .pretty else if text = "json" then some .json else none

def Format.parse (text : String) : Except NameError Format :=
  match Format.ofName? (Text.lowerAscii text) with
  | some f => .ok f
  | none => .error (.unknownFormat text)

end ScriptHost.Log

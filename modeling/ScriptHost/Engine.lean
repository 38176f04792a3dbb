import ScriptHost.Path
import ScriptHost.Text.Blank

/-!
# Engines and entry points

The eight families of scripts, and the three entry points that a host can ask for. Names
are read without regard to surrounding blanks and ASCII case, a hyphen standing for an
underscore.
-/

namespace ScriptHost

/-- The family of engines that a script is written for. -/
inductive Engine where
  | lua
  | rhai
  | wat
  | wast
  | binary
  | ruby
  | nodeGraph
  | workflow
  deriving DecidableEq, Repr, Inhabited

namespace Engine

/-- Every family, in the order of their handlers. -/
def all : List Engine := [lua, rhai, wat, wast, binary, ruby, nodeGraph, workflow]

/-- The place in that order. -/
def index : Engine → Nat
  | lua => 0
  | rhai => 1
  | wat => 2
  | wast => 3
  | binary => 4
  | ruby => 5
  | nodeGraph => 6
  | workflow => 7

def name : Engine → String
  | lua => "lua"
  | rhai => "rhai"
  | wat => "wat"
  | wast => "wast"
  | binary => "binary"
  | ruby => "ruby"
  | nodeGraph => "node_graph"
  | workflow => "workflow"

/-- The extension of script files, in lower case. -/
def extension : Engine → String
  | lua => "lua"
  | rhai => "rhai"
  | wat => "wat"
  | wast => "wast"
  | binary => "wasm"
  | ruby => "rb"
  | nodeGraph => "graph"
  | workflow => "flow"

/-- The name in camel case, as the description of an invocation shows it. -/
def title : Engine → String
  | lua => "Lua"
  | rhai => "Rhai"
  | wat => "Wat"
  | wast => "Wast"
  | binary => "Binary"
  | ruby => "Ruby"
  | nodeGraph => "NodeGraph"
  | workflow => "Workflow"

theorem all_index (e : Engine) : all[e.index]? = some e := by cases e <;> rfl

end Engine

/-- What a host asks a script for. -/
inductive Interface where
  | command
  | eventHandler
  | availability
  deriving DecidableEq, Repr, Inhabited

namespace Interface

def name : Interface → String
  | command => "command"
  | eventHandler => "event_handler"
  | availability => "availability"

/-- The name in camel case, as the description of an invocation shows it. -/
def title : Interface → String
  | command => "Command"
  | eventHandler => "EventHandler"
  | availability => "Availability"

end Interface

/-- A name that stands for no engine or no entry point. -/
inductive NameError where
  | unknownEngine (text : String)
  | unknownInterface (text : String)
  deriving DecidableEq

def NameError.message : NameError → String
  | .unknownEngine text => "unknown engine \x60" ++ text ++ "\x60"
  | .unknownInterface text => "unknown interface \x60" ++ text ++ "\x60"

/-- A name without blanks around it, in lower case, with underscores for hyphens. -/
def plainName (text : String) : String :=
  (Text.lowerAscii (Text.trim text)).map fun c => if c = '-' then '_' else c

/-- The engine of this name or extension. -/
def Engine.parse (text : String) : Except NameError Engine :=
  let plain := plainName text
  match Engine.all.find? fun e => e.name == plain || e.extension == plain with
  | some e => .ok e
  | none => .error (.unknownEngine text)

/-- The engine whose extension the path has. -/
def Engine.ofPath? (path : String) : Option Engine := do
  let extension ← Path.extension? path
  let extension := Text.lowerAscii extension
  Engine.all.find? fun e => e.extension == extension

/-- The entry point of this name. -/
def Interface.parse (text : String) : Except NameError Interface :=
  let plain := plainName text
  if plain = "command" then .ok .command
  else if plain = "event_handler" ∨ plain = "event" then .ok .eventHandler
  else if plain = "availability" then .ok .availability
  else .error (.unknownInterface text)

end ScriptHost

import ScriptHost.Text.Newline

/-!
# Diagnostics

A failed invocation leaves up to three texts: what the interpreter says, what the host
says, and what the embedded interpreter says. Each has its banner.
-/

namespace ScriptHost

structure Diagnostics where
  interpreter : Option String := none
  runtime : Option String := none
  embedded : Option String := none
  deriving DecidableEq, Inhabited

namespace Diagnostics

def interpreterBanner : String := "Lua Traceback:"
def runtimeBanner : String := "Script Executor Traceback:"
def embeddedBanner : String := "Rhai Traceback:"

def isEmpty (d : Diagnostics) : Bool :=
  d.interpreter.isNone && d.runtime.isNone && d.embedded.isNone

/-- A text under its banner. -/
def under (banner text : String) : String := banner ++ "\n" ++ text

/-- The texts that are there, each under its banner. -/
def sections (d : Diagnostics) : List String :=
  [(interpreterBanner, d.interpreter), (runtimeBanner, d.runtime),
    (embeddedBanner, d.embedded)].filterMap fun (banner, text) => text.map (under banner)

/-- The sections with an empty line between them. -/
def render (d : Diagnostics) : String := "\n\n".intercalate d.sections

end Diagnostics

end ScriptHost

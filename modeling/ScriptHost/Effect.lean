import ScriptHost.Invocation
import ScriptHost.Log.Event
import ScriptHost.Output

/-!
# Effects

What a run leaves behind besides its values: writes to sinks, notices and log events, in
their order. A sink is known by its number.
-/

namespace ScriptHost

inductive Effect where
  | write (sink : Nat) (entry : Entry)
  | notify (notice : Notice)
  | log (event : Log.Event)
  deriving DecidableEq

abbrev Effects := List Effect

namespace Effects

/-- The entries that were written to a sink. -/
def entriesOf (sink : Nat) (es : Effects) : Entries :=
  es.filterMap fun e => match e with
    | .write s entry => if s = sink then some entry else none
    | _ => none

def notices (es : Effects) : List Notice :=
  es.filterMap fun e => match e with
    | .notify n => some n
    | _ => none

theorem entriesOf_append (sink : Nat) (es fs : Effects) :
    entriesOf sink (es ++ fs) = entriesOf sink es ++ entriesOf sink fs := List.filterMap_append

theorem entriesOf_map_log (sink : Nat) (events : List Log.Event) :
    entriesOf sink (events.map Effect.log) = [] := by
  simp [entriesOf]

end Effects

/-- How a run went: its outcome, what the host finds afterwards, and the effects. -/
structure Execution where
  outcome : Outcome
  report : Report := {}
  effects : Effects := []

/-- A write to the error channel of a sink. -/
def Effect.error (sink : Nat) (text : String) : Effect := .write sink ⟨.err, text⟩

end ScriptHost

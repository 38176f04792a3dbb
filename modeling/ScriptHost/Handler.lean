import ScriptHost.Effect
import ScriptHost.Files

/-!
# Handlers

A handler runs the scripts of an engine. What it keeps from one run to the next is its state;
handlers that share something have a state in common.
-/

namespace ScriptHost

/-- How a handler comes back from a run: with an execution, or in a panic, whose payload may be a
text. What the handler had reported and done before a panic stands. -/
inductive Attempt where
  | finished (execution : Execution)
  | panicked (payload : Option String) (report : Report) (effects : Effects)

/-- A handler with a state of type `σ`. It is given the files, what it is to run, and the sink
for what is written. -/
structure Handler (σ : Type) where
  name : String
  run : σ → Files → Invocation → Nat → σ × Attempt

/-- A handler that never panics. -/
def Handler.steady {σ : Type} (name : String) (run : σ → Files → Invocation → Nat → σ × Execution) :
    Handler σ where
  name := name
  run state files v sink :=
    let (state, execution) := run state files v sink
    (state, .finished execution)

end ScriptHost

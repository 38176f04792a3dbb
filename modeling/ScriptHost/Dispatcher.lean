import ScriptHost.Handler

/-!
# Dispatch

Every engine has its handler. A dispatcher takes a job to the handler of its engine, and answers
with an outcome whatever the handler does: a panic counts as a failed run.
-/

namespace ScriptHost

theorem Engine.mem_all (e : Engine) : e ∈ Engine.all := by cases e <;> simp [Engine.all]

/-- A script that a host runs, possibly more than once: what it asks for, the sink, and what it
found after the last run. -/
structure Job where
  invocation : Invocation
  sink : Nat := 0
  report : Report := {}

structure Dispatcher (σ : Type) where
  handler : Engine → Handler σ

/-- An engine that no handler was given for. -/
structure MissingHandler where
  engine : Engine
  deriving DecidableEq

def MissingHandler.message (m : MissingHandler) : String :=
  "no handler registered for engine \x60" ++ m.engine.name ++ "\x60"

/-- Handlers as they are collected: for some engines, or for all. -/
def Handlers (σ : Type) : Type := Engine → Option (Handler σ)

namespace Handlers

variable {σ : Type}

def none : Handlers σ := fun _ => .none

/-- The handlers with one for an engine, in place of that before. -/
def register (hs : Handlers σ) (engine : Engine) (h : Handler σ) : Handlers σ :=
  fun e => if e = engine then some h else hs e

/-- The dispatcher of the handlers, or the first engine without one. -/
def build (hs : Handlers σ) : Except MissingHandler (Dispatcher σ) :=
  match h : Engine.all.find? fun e => (hs e).isNone with
  | some e => .error ⟨e⟩
  | .none =>
    .ok ⟨fun e => (hs e).get (by
      have := List.find?_eq_none.mp h e e.mem_all
      simpa [Option.isSome_iff_ne_none] using this)⟩

end Handlers

/-- What becomes of an attempt. A panic keeps what the handler had reported but for the text of
the host. -/
def Handler.settle {σ : Type} (h : Handler σ) : Attempt → Execution
  | .finished e => e
  | .panicked payload report effects =>
    let text := h.name ++ " handler panicked: " ++ payload.getD "unknown panic"
    { outcome := .executionFailed
      report := { report with diagnostics := { report.diagnostics with runtime := some text } }
      effects := effects ++ [.log
        { level := .error, target := "scriptrun_core::dispatcher", message := "handler panicked"
          fields := [("error", .plain text)] }] }

/-- What the log is told at the end of a run. -/
def Outcome.event (o : Outcome) : Log.Event where
  level := if o.isFailure then .debug else .trace
  target := "scriptrun_core::dispatcher"
  message := if o.isFailure then "script failed" else "script finished"
  fields := [("result", .plain o.label)]

namespace Dispatcher

variable {σ : Type}

/-- The engines with the names of their handlers. -/
def engineNames (d : Dispatcher σ) : List (Engine × String) :=
  Engine.all.map fun e => (e, (d.handler e).name)

/-- Runs a job. Nothing of what was found after an earlier run is left. -/
def dispatch (d : Dispatcher σ) (state : σ) (files : Files) (job : Job) :
    σ × Job × Outcome × Effects :=
  let h := d.handler job.invocation.engine
  let (state, attempt) := h.run state files job.invocation job.sink
  let e := h.settle attempt
  (state, { job with report := e.report }, e.outcome, e.effects ++ [.log e.outcome.event])

end Dispatcher

end ScriptHost

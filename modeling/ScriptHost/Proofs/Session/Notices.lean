import Mathlib.Data.List.Forall2
import ScriptHost.Proofs.Session.Endings

/-!
# What the user is shown

A notice keeps the user from working until it is put away, so a second one for the same run is a
nuisance, and one that is missing leaves a failure unseen. How many notices a dispatch shows follows
from its engine, its entry point and its outcome (`Invocation.Notifies`): one or none, and the one
says what the diagnostics of the host say (`Session.serve_notifies`).

Functions that several handlers share each show at most one notice and call no other that does, so
the notices of a run are those of the function that has ended it.
-/

namespace ScriptHost

namespace Effects

theorem notices_append (es fs : Effects) : notices (es ++ fs) = notices es ++ notices fs :=
  List.filterMap_append

theorem notices_map_log (events : List Log.Event) :
    notices (events.map Effect.log) = [] := by
  simp [notices]

theorem notices_map_write (sink : Nat) (entries : Entries) :
    notices (entries.map (Effect.write sink)) = [] := by
  simp [notices]

end Effects

/-- Is the user shown a notice of a run with this outcome? Interpreters never show one, engines
that do not exist always do. Scripts that are compiled show none if they only lack what was asked
for, but for a command. -/
def Invocation.Notifies (v : Invocation) (outcome : Outcome) : Prop :=
  match v.engine with
  | .lua | .rhai => False
  | .ruby | .nodeGraph => True
  | .binary | .workflow => outcome.isFailure
  | .wat | .wast =>
    outcome = .compileFailed ∨ outcome = .executionFailed ∨
      outcome = .interfaceMissing ∧ v.interface = .command

/-- The notices that go with an invocation, its outcome and its report: one or none, and what it
says is in the diagnostics if the host has any. -/
structure Invocation.Shows (v : Invocation) (outcome : Outcome) (r : Report)
    (notices : List Notice) : Prop where
  once : v.Notifies outcome → ∃ notice, notices = [notice]
  never : ¬ v.Notifies outcome → notices = []
  message : ∀ notice ∈ notices, ∀ text ∈ r.diagnostics.runtime, notice.message = text

namespace Invocation

variable {v : Invocation} {sink : Nat}

/-- The notices of an execution are those that go with it. -/
def Informs (v : Invocation) (e : Execution) : Prop := v.Shows e.outcome e.report e.effects.notices

theorem informs_of_none {e : Execution} (hn : ¬ v.Notifies e.outcome)
    (he : e.effects.notices = []) : v.Informs e where
  once h := absurd h hn
  never _ := he
  message notice h := by
    rw [he] at h
    exact absurd h List.not_mem_nil

theorem informs_of_one {e : Execution} {notice : Notice} (hn : v.Notifies e.outcome)
    (he : e.effects.notices = [notice])
    (hr : ∀ text ∈ e.report.diagnostics.runtime, notice.message = text) : v.Informs e where
  once _ := ⟨notice, he⟩
  never h := absurd hn h
  message other h := by
    rw [he, List.mem_singleton] at h
    exact h ▸ hr

/-- Effects without a notice change nothing in what is shown. -/
theorem Informs.after {e : Execution} (h : v.Informs e) {before : Effects}
    (hb : before.notices = []) : v.Informs (e.after before) := by
  have hsame : (e.after before).effects.notices = e.effects.notices := by
    rw [Execution.after, Effects.notices_append, hb, List.nil_append]
  rw [Informs, hsame]
  exact h

/-! ## Modules -/

theorem notifies_iff_of_source (engine : v.engine = .wat ∨ v.engine = .wast) {outcome : Outcome} :
    v.Notifies outcome ↔ outcome = .compileFailed ∨ outcome = .executionFailed ∨
      outcome = .interfaceMissing ∧ v.interface = .command := by
  unfold Notifies
  rcases engine with h | h <;> rw [h]

theorem notifies_iff_of_module (engine : v.engine = .binary ∨ v.engine = .workflow)
    {outcome : Outcome} : v.Notifies outcome ↔ outcome.isFailure := by
  unfold Notifies
  rcases engine with h | h <;> rw [h]

/-- Where commands are run, both failures of a run are shown, and nothing else. -/
theorem RunsCommand.notifies_iff (command : v.RunsCommand) :
    v.Notifies .executionFailed ∧ v.Notifies .interfaceMissing ∧ ¬ v.Notifies .succeeded := by
  rcases command with h | h | ⟨engine, interface⟩
  · simp [notifies_iff_of_module (.inl h), Outcome.isFailure]
  · simp [notifies_iff_of_module (.inr h), Outcome.isFailure]
  · simp [notifies_iff_of_source engine, interface]

/-- A failure of the host is shown with the text that is in its diagnostics. -/
theorem failed_informs {outcome : Outcome} (hn : v.Notifies outcome) (title message : String) :
    v.Informs (failed outcome title sink message) := by
  have hone : (failed outcome title sink message).effects.notices =
      [⟨title, Text.Newline.normalize message⟩] := rfl
  refine informs_of_one hn hone ?_
  intro text htext
  exact Option.some.inj htext

theorem notices_writes (sink : Nat) (h : Wasm.Host) : (writes sink h).notices = [] :=
  Effects.notices_map_write sink h.output

theorem runCommand_informs (command : v.RunsCommand) (c : Wasm.Compiled)
    (required : Option String) (handles : Handles) (references : List Wasm.Compiled) :
    v.Informs (runCommand c required handles references sink) := by
  obtain ⟨hfailed, hmissing, hsucceeded⟩ := command.notifies_iff
  unfold runCommand
  split
  · refine informs_of_one hmissing rfl ?_
    intro text htext
    cases htext
  · split
    · exact (failed_informs hfailed _ _).after (notices_writes sink _)
    · refine informs_of_none hsucceeded ?_
      rw [Effects.notices_append, notices_writes]
      rfl

theorem runEventHandler_informs (engine : v.engine = .wat ∨ v.engine = .wast)
    (interface : v.interface = .eventHandler) (c : Wasm.Compiled) (handles : Handles)
    (references : List Wasm.Compiled) :
    v.Informs (runEventHandler c handles references sink) := by
  rw [runEventHandler]
  dsimp only
  split
  · refine informs_of_none ?_ rfl
    simp [notifies_iff_of_source engine, interface]
  · split
    · refine informs_of_none ?_ (notices_writes sink _)
      simp [notifies_iff_of_source engine]
    · have hn : v.Notifies .executionFailed := (notifies_iff_of_source engine).2 (.inr (.inl rfl))
      exact (failed_informs hn _ _).after (notices_writes sink _)

theorem runInterface_informs (engine : v.engine = .wat ∨ v.engine = .wast) (c : Wasm.Compiled)
    (references : List Wasm.Compiled) :
    v.Informs (runInterface c v.interface v.handles references sink) := by
  unfold runInterface
  split
  next h => exact runCommand_informs (.inr (.inr ⟨engine, h⟩)) c none v.handles references
  next h => exact runEventHandler_informs engine h c v.handles references
  next h =>
    refine informs_of_none ?_ rfl
    simp [notifies_iff_of_source engine, h]

theorem runSource_informs (engine : v.engine = .wat ∨ v.engine = .wast) (r : Registry)
    (files : Files) (paths defines : List String) :
    v.Informs (r.runSource files paths defines v sink).2 := by
  rw [Registry.runSource]
  dsimp only
  refine Informs.after ?_ (Effects.notices_map_log _)
  split
  · exact failed_informs ((notifies_iff_of_source engine).2 (.inl rfl)) _ _
  · exact runInterface_informs engine _ _

theorem runAddress_informs (engine : v.engine = .binary) (r : Registry) (files : Files)
    (a : Address) : v.Informs (r.runAddress files a v sink).2 := by
  rw [Registry.runAddress]
  dsimp only
  split
  · have hn : v.Notifies .executionFailed := (notifies_iff_of_module (.inl engine)).2 rfl
    exact Informs.after (failed_informs hn _ _) (Effects.notices_map_log _)
  · exact (runCommand_informs (.inl engine) _ _ _ _).after (Effects.notices_map_log _)

theorem runBinary_informs (engine : v.engine = .binary) (r : Registry) (files : Files) :
    v.Informs (r.runBinary files v sink).2 := by
  have hn {outcome : Outcome} (h : outcome.isFailure) : v.Notifies outcome :=
    (notifies_iff_of_module (.inl engine)).2 h
  rw [Registry.runBinary]
  split
  · refine informs_of_one (hn rfl) rfl ?_
    intro text htext
    cases htext
  · refine informs_of_one (hn rfl) rfl ?_
    intro text htext
    exact Option.some.inj htext
  · exact runAddress_informs engine r files _

theorem runWorkflow_informs (engine : v.engine = .workflow) (r : Registry)
    (settings : Config.Workflow) : v.Informs (r.runWorkflow settings v sink) := by
  rw [Registry.runWorkflow]
  split
  · refine informs_of_one ((notifies_iff_of_module (.inr engine)).2 rfl) rfl ?_
    intro text htext
    exact Option.some.inj htext
  · exact (runCommand_informs (.inr (.inl engine)) _ _ _ _).after rfl

theorem engineMissing_informs (engine : v.engine = .ruby ∨ v.engine = .nodeGraph) :
    v.Informs (engineMissing v) := by
  refine informs_of_one ?_ rfl ?_
  · unfold Notifies
    rcases engine with h | h <;> rw [h] <;> trivial
  · intro text htext
    cases htext

/-! ## Interpreters -/

/-- An interpreter has nothing to show but what it writes and logs. -/
theorem informs_of_interpreted (engine : v.engine = .lua ∨ v.engine = .rhai) {e : Execution}
    (he : e.effects.notices = []) : v.Informs e := by
  refine informs_of_none ?_ he
  unfold Notifies
  rcases engine with h | h <;> rw [h] <;> exact id

end Invocation

namespace Lua

theorem Interpreter.notices_takeWritten (s : Store) : (takeWritten s).2.notices = [] := by
  simp [takeWritten, Effects.notices]

theorem Interpreter.notices_finished (v : Invocation) (sink : Nat) (ended : Ended) :
    (finished v sink ended).2.effects.notices = [] := by
  have hfailed (t : Store) (texts : String × String) :
      (failed t sink texts).2.effects.notices = [] := by
    show Effects.notices ((takeWritten t).2 ++ [_]) = []
    rw [Effects.notices_append, notices_takeWritten]
    rfl
  unfold finished
  split
  · next s _ =>
    show Effects.notices ((takeWritten s).2 ++ _) = []
    rw [Effects.notices_append, notices_takeWritten, Effects.notices_map_log]
    rfl
  · next s _ =>
    split
    · show Effects.notices ((takeWritten s).2 ++ [_]) = []
      rw [Effects.notices_append, notices_takeWritten]
      rfl
    · exact hfailed _ _
  · exact hfailed _ _

theorem Interpreter.notices_run (i : Interpreter) (v : Invocation) (sink : Nat) (source : String) :
    (i.run v sink source).2.effects.notices = [] := by
  show (runPrepared (prepared i.store v sink) v sink source).2.effects.notices = []
  rw [runPrepared]
  split
  · rfl
  · exact notices_finished v sink _

theorem Pool.notices_run (p : Pool) (files : Files) (v : Invocation) (sink : Nat) :
    (p.run files v sink).2.effects.notices = [] := by
  rw [Pool.run]
  split
  · rfl
  · rw [Pool.runText]
    dsimp only
    rw [Effects.notices_append, Effects.notices_append, Interpreter.notices_run,
      Effects.notices_map_log, Effects.notices_map_log]
    rfl

end Lua

namespace Rhai.Embedded

theorem notices_writes (sink : Nat) (s : State) : (writes sink s).notices = [] := by
  simp [writes, Effects.notices]

theorem notices_runText (e : Embedded) (files : Files) (v : Invocation) (sink : Nat)
    (source : String) : (e.runText files v sink source).2.effects.notices = [] := by
  rw [runText]
  split
  · rfl
  · dsimp only
    split
    · rw [Effects.notices_append, notices_writes]
      rfl
    · rw [Effects.notices_append, notices_writes, Effects.notices_map_log]
      rfl
    · rw [Effects.notices_append, notices_writes, Effects.notices_map_log]
      rfl

theorem notices_run (e : Embedded) (files : Files) (v : Invocation) (sink : Nat) :
    (e.run files v sink).2.effects.notices = [] := by
  rw [run]
  dsimp only
  rw [Effects.notices_append, Effects.notices_map_log, List.nil_append]
  split
  · rfl
  · exact notices_runText _ files v sink _

end Rhai.Embedded

/-! ## All handlers -/

/-- What holds of every dispatch, whatever the state before it, holds of all that are served. -/
theorem Dispatcher.forall₂_serve {σ : Type} {d : Dispatcher σ}
    {R : Files × Job → Job × Outcome × Effects → Prop}
    (h : ∀ state files job, R (files, job) (d.dispatch state files job).2) (state : σ)
    (dispatches : List (Files × Job)) : List.Forall₂ R dispatches (d.serve state dispatches) := by
  induction dispatches generalizing state with
  | nil => exact .nil
  | cons first rest ih =>
    obtain ⟨files, job⟩ := first
    exact .cons (h state files job) (ih _)

namespace Session

/-- Every handler comes back with an execution whose notices go with it. -/
theorem handler_informs (config : Config) (s : Session) (files : Files) (v : Invocation)
    (sink : Nat) :
    ∃ s' e, (handler config v.engine).run s files v sink = (s', .finished e) ∧ v.Informs e := by
  cases h : v.engine with
  | lua =>
    have hnone := Lua.Pool.notices_run s.pool files v sink
    exact ⟨_, _, rfl, Invocation.informs_of_interpreted (.inl h) hnone⟩
  | rhai =>
    have hnone := Rhai.Embedded.notices_run s.embedded files v sink
    exact ⟨_, _, rfl, Invocation.informs_of_interpreted (.inr h) hnone⟩
  | wat => exact ⟨_, _, rfl, Invocation.runSource_informs (.inl h) s.registry files _ _⟩
  | wast => exact ⟨_, _, rfl, Invocation.runSource_informs (.inr h) s.registry files _ _⟩
  | binary => exact ⟨_, _, rfl, Invocation.runBinary_informs h s.registry files⟩
  | workflow => exact ⟨_, _, rfl, Invocation.runWorkflow_informs h s.registry config.workflow⟩
  | ruby => exact ⟨_, _, rfl, Invocation.engineMissing_informs (.inl h)⟩
  | nodeGraph => exact ⟨_, _, rfl, Invocation.engineMissing_informs (.inr h)⟩

/-- What a dispatch shows goes with its outcome, whatever the session was before. -/
theorem dispatch_notifies (config : Config) (s : Session) (files : Files) (job : Job) :
    let (after, outcome, effects) := ((dispatcher config).dispatch s files job).2
    job.invocation.Shows outcome after.report effects.notices := by
  obtain ⟨s', e, hrun, hinforms⟩ := handler_informs config s files job.invocation job.sink
  rw [dispatch_eq hrun]
  show job.invocation.Shows e.outcome e.report (Effects.notices (e.effects ++ [_]))
  rw [Effects.notices_append]
  exact (List.append_nil e.effects.notices).symm ▸ hinforms

/-- **What the user is shown.** In a session of any dispatches, each shows one notice or none, as
its engine, its entry point and its outcome say, and the notice has the text of the host's
diagnostics whenever there is one. -/
theorem serve_notifies (config : Config) (s : Session) (dispatches : List (Files × Job)) :
    List.Forall₂
      (fun (dispatched : Files × Job) (answer : Job × Outcome × Effects) =>
        dispatched.2.invocation.Shows answer.2.1 answer.1.report answer.2.2.notices)
      dispatches ((dispatcher config).serve s dispatches) :=
  Dispatcher.forall₂_serve (dispatch_notifies config) s dispatches

end Session

end ScriptHost

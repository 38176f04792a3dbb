import ScriptHost.Session

/-!
# How runs end

Handlers come to an end in many places: a file that cannot be read, an address or a module that is
missing, a source that does not compile, a module that cannot be linked, a trap, an error or the
request to exit. To a host the ends are of six kinds (`Session.Ending`), and every run of every
handler is of one of them (`Session.handler_ends`). All failures but two write their diagnostics to
the sink; the two are those before a module is found (`Session.Unwritten`).

A host reads what has become of a script from the outcome and from the report, whose fields go with
it: diagnostics if the script has failed, results if it was interpreted, a status if it was a command
that has returned (`Session.serve_fits`). The diagnostics are also to be read on the error channel of
the script's sink, each text under its banner, unless the run has failed before its module was found
(`Session.reaches_iff_not_unwritten`): such a failure is shown to the user and kept in the report, but
not written (`Session.not_reaches_unregistered`).
-/

namespace ScriptHost

/-! ## What is written of diagnostics -/

namespace Diagnostics

/-- Each text that is there has been written under its banner to the error channel of a sink. -/
def Reaches (d : Diagnostics) (sink : Nat) (es : Effects) : Prop :=
  ∀ part ∈ d.sections, ∃ before after,
    ⟨.err, before ++ part ++ "\n" ++ after⟩ ∈ es.entriesOf sink

/-- What a failure on an engine may leave: some text, and none of an interpreter that the engine does
not have. -/
structure FailureOf (d : Diagnostics) (engine : Engine) : Prop where
  nonempty : ¬ d.isEmpty
  interpreter : d.interpreter ≠ none → engine = .lua
  runtime : d.runtime ≠ none → engine ≠ .rhai
  embedded : d.embedded ≠ none → engine = .rhai

theorem failureOf_lua (text : String) (runtime : Option String) :
    FailureOf { interpreter := some text, runtime } .lua where
  nonempty := by simp [isEmpty]
  interpreter _ := rfl
  runtime _ := by decide
  embedded h := absurd rfl h

theorem failureOf_rhai (text : String) : FailureOf { embedded := some text } .rhai where
  nonempty := by simp [isEmpty]
  interpreter h := absurd rfl h
  runtime h := absurd rfl h
  embedded _ := rfl

theorem failureOf_runtime {engine : Engine} (h : engine ≠ .rhai) (text : String) :
    FailureOf { runtime := some text } engine where
  nonempty := by simp [isEmpty]
  interpreter h := absurd rfl h
  runtime _ := h
  embedded h := absurd rfl h

end Diagnostics

/-- A text that stands among others, with an empty line between them. -/
theorem exists_intercalate_eq {part : String} {parts : List String} (h : part ∈ parts) :
    ∃ before after, "\n\n".intercalate parts ++ "\n" = before ++ part ++ "\n" ++ after := by
  induction parts with
  | nil => exact absurd h List.not_mem_nil
  | cons first rest ih =>
    cases rest with
    | nil =>
      rw [List.mem_singleton.1 h, String.intercalate_singleton]
      exact ⟨"", "", by simp⟩
    | cons second rest =>
      rw [String.intercalate_cons_cons]
      rcases List.mem_cons.1 h with rfl | h
      · refine ⟨"", "\n" ++ "\n\n".intercalate (second :: rest) ++ "\n", ?_⟩
        rw [show "\n\n" = "\n" ++ "\n" from rfl]
        simp only [String.empty_append, String.append_assoc]
      · obtain ⟨before, after, he⟩ := ih h
        refine ⟨first ++ "\n\n" ++ before, after, ?_⟩
        rw [String.append_assoc, he]
        simp only [String.append_assoc]

/-- Diagnostics reach a sink that they are written to as the host shows them. -/
theorem Diagnostics.reaches_of_render {d : Diagnostics} {sink : Nat} {es : Effects}
    (h : ⟨.err, d.render ++ "\n"⟩ ∈ es.entriesOf sink) : d.Reaches sink es := by
  intro part hpart
  obtain ⟨before, after, he⟩ := exists_intercalate_eq hpart
  exact ⟨before, after, he ▸ h⟩

/-- What is written to the error channel of a sink is there, whatever else is done. -/
theorem Effects.mem_entriesOf_error (sink : Nat) (text : String) (before after : Effects) :
    ⟨.err, text⟩ ∈ entriesOf sink (before ++ .error sink text :: after) := by
  rw [entriesOf_append]
  refine List.mem_append_right _ ?_
  simp [entriesOf, Effect.error]

/-! ## The ends of runs -/

/-- A run that calls the command of a module. Binaries and workflows have no other entry point. -/
def Invocation.RunsCommand (v : Invocation) : Prop :=
  v.engine = .binary ∨ v.engine = .workflow ∨
    (v.engine = .wat ∨ v.engine = .wast) ∧ v.interface = .command

theorem ne_rhai_of_source {engine : Engine} (h : engine = .wat ∨ engine = .wast) :
    engine ≠ .rhai := by
  rcases h with rfl | rfl <;> decide

theorem Invocation.RunsCommand.ne_rhai {v : Invocation} (h : v.RunsCommand) :
    v.engine ≠ .rhai := by
  rcases h with h | h | ⟨h, -⟩
  · rw [h]
    decide
  · rw [h]
    decide
  · exact ne_rhai_of_source h

namespace Session

/-- A run that fails before its module is found: by an address that is none, or since the module of
workflows is not registered. -/
def Unwritten (config : Config) (s : Session) (v : Invocation) : Prop :=
  (v.engine = .binary ∧ ∃ e, Address.parse v.address = .error e ∧ e ≠ .empty) ∨
    v.engine = .workflow ∧ s.registry.find? config.workflow.module = none

/-- How a run with a sink ends in a session. -/
inductive Ending (config : Config) (s : Session) (v : Invocation) (sink : Nat) :
    Execution → Prop
  /-- A script has come to its end, and what it has published is there. -/
  | published {results : List (String × Json)} {effects : Effects}
      (engine : v.engine = .lua ∨ v.engine = .rhai) :
      Ending config s v sink ⟨.succeeded, { results }, effects⟩
  /-- A command has returned. -/
  | returned {message : String} {status : Status} {effects : Effects} (command : v.RunsCommand) :
      Ending config s v sink ⟨.succeeded, { message, status := some status }, effects⟩
  /-- A handler of events has returned. -/
  | handled {effects : Effects} (engine : v.engine = .wat ∨ v.engine = .wast)
      (interface : v.interface = .eventHandler) :
      Ending config s v sink ⟨.succeeded, {}, effects⟩
  /-- Nothing has gone wrong, but nothing has come to its end either. -/
  | declined {outcome : Outcome} {effects : Effects}
      (declined : outcome = .exited ∨ outcome = .engineMissing ∨ outcome = .interfaceMissing) :
      Ending config s v sink ⟨outcome, {}, effects⟩
  /-- The run has failed, and the sink has its diagnostics. -/
  | failed {outcome : Outcome} {diagnostics : Diagnostics} {effects : Effects}
      (failed : outcome = .executionFailed ∨ outcome = .compileFailed)
      (failureOf : diagnostics.FailureOf v.engine)
      (written : ⟨.err, diagnostics.render ++ "\n"⟩ ∈ effects.entriesOf sink) :
      Ending config s v sink ⟨outcome, { diagnostics }, effects⟩
  /-- The run has failed, and nothing is written. -/
  | unwritten {text : String} {effects : Effects} (unwritten : Unwritten config s v)
      (silent : effects.entriesOf sink = []) :
      Ending config s v sink ⟨.executionFailed, { diagnostics := { runtime := some text } }, effects⟩

namespace Ending

variable {config : Config} {s : Session} {v : Invocation} {sink : Nat} {e : Execution}

/-- How a run ends does not depend on what it does besides writing to its sink. -/
theorem of_entriesOf (h : Ending config s v sink e) {effects : Effects}
    (same : effects.entriesOf sink = e.effects.entriesOf sink) :
    Ending config s v sink { e with effects } := by
  cases h with
  | published engine => exact .published engine
  | returned command => exact .returned command
  | handled engine interface => exact .handled engine interface
  | declined declined => exact .declined declined
  | failed failed failureOf written => exact .failed failed failureOf (by rwa [same])
  | unwritten unwritten silent => exact .unwritten unwritten (by rwa [same])

/-- What the log is told before a run does not change how it ends. -/
theorem after_log (h : Ending config s v sink e) (events : List Log.Event) :
    Ending config s v sink (e.after (events.map .log)) := by
  refine h.of_entriesOf ?_
  rw [Effects.entriesOf_append, Effects.entriesOf_map_log, List.nil_append]

end Ending

/-! ## Modules -/

section

variable {config : Config} {s : Session} {v : Invocation} {sink : Nat}

/-- A failure of a module is written, whatever was written before it. -/
theorem failed_ends (engine : v.engine ≠ .rhai) {outcome : Outcome}
    (ho : outcome = .executionFailed ∨ outcome = .compileFailed) (title message : String)
    (before : Effects) :
    Ending config s v sink ((ScriptHost.failed outcome title sink message).after before) :=
  .failed ho (Diagnostics.failureOf_runtime engine _) (Effects.mem_entriesOf_error _ _ before _)

theorem runCommand_ends (command : v.RunsCommand) (c : Wasm.Compiled) (required : Option String)
    (handles : Handles) (references : List Wasm.Compiled) :
    Ending config s v sink (runCommand c required handles references sink) := by
  unfold runCommand
  split
  · exact .declined (.inr (.inr rfl))
  · split
    · exact failed_ends command.ne_rhai (.inl rfl) _ _ _
    · exact .returned command

theorem runEventHandler_ends (engine : v.engine = .wat ∨ v.engine = .wast)
    (interface : v.interface = .eventHandler) (c : Wasm.Compiled) (handles : Handles)
    (references : List Wasm.Compiled) :
    Ending config s v sink (runEventHandler c handles references sink) := by
  rw [runEventHandler]
  dsimp only
  split
  · exact .declined (.inr (.inr rfl))
  · split
    · exact .handled engine interface
    · exact failed_ends (ne_rhai_of_source engine) (.inl rfl) _ _ _

theorem runInterface_ends (engine : v.engine = .wat ∨ v.engine = .wast) (c : Wasm.Compiled)
    (references : List Wasm.Compiled) :
    Ending config s v sink (runInterface c v.interface v.handles references sink) := by
  unfold runInterface
  split
  next h => exact runCommand_ends (.inr (.inr ⟨engine, h⟩)) c none v.handles references
  next h => exact runEventHandler_ends engine h c v.handles references
  next => exact .declined (.inr (.inr rfl))

theorem runSource_ends (engine : v.engine = .wat ∨ v.engine = .wast) (r : Registry)
    (files : Files) (paths defines : List String) :
    Ending config s v sink (r.runSource files paths defines v sink).2 := by
  rw [Registry.runSource]
  dsimp only
  split
  · exact failed_ends (ne_rhai_of_source engine) (.inr rfl) _ _ _
  · exact (runInterface_ends engine _ _).after_log _

theorem runAddress_ends (engine : v.engine = .binary) (r : Registry) (files : Files)
    (a : Address) : Ending config s v sink (r.runAddress files a v sink).2 := by
  rw [Registry.runAddress]
  dsimp only
  split
  · exact failed_ends (by rw [engine]; decide) (.inl rfl) _ _ _
  · exact (runCommand_ends (.inl engine) _ _ _ _).after_log _

theorem runBinary_ends (engine : v.engine = .binary) (r : Registry) (files : Files) :
    Ending config s v sink (r.runBinary files v sink).2 := by
  rw [Registry.runBinary]
  split
  next => exact .declined (.inr (.inr rfl))
  next e hne he => exact .unwritten (.inl ⟨engine, e, he, hne⟩) rfl
  next => exact runAddress_ends engine r files _

theorem runWorkflow_ends (engine : v.engine = .workflow) :
    Ending config s v sink (s.registry.runWorkflow config.workflow v sink) := by
  rw [Registry.runWorkflow]
  split
  next hf => exact .unwritten (.inr ⟨engine, hf⟩) rfl
  next => exact (runCommand_ends (.inr (.inl engine)) _ _ _ _).after_log [_]

end

end Session

/-! ## Interpreters -/

namespace Lua

variable {config : Config} {s : Session} {v : Invocation} {sink : Nat}

theorem Interpreter.finished_ends (engine : v.engine = .lua) (ended : Ended) :
    Session.Ending config s v sink (finished v sink ended).2 := by
  have hfailed (t : Store) (texts : String × String) :
      Session.Ending config s v sink (failed t sink texts).2 := by
    refine .failed (.inl rfl) (engine ▸ Diagnostics.failureOf_lua _ _) ?_
    exact Effects.mem_entriesOf_error _ _ (takeWritten t).2 []
  unfold finished
  split
  · exact .published (.inl engine)
  · split
    · exact .declined (.inl rfl)
    · exact hfailed _ _
  · exact hfailed _ _

theorem Interpreter.run_ends (engine : v.engine = .lua) (i : Interpreter) (source : String) :
    Session.Ending config s v sink (i.run v sink source).2 := by
  show Session.Ending config s v sink (runPrepared (prepared i.store v sink) v sink source).2
  rw [runPrepared]
  split
  · refine .failed (.inr rfl) (engine ▸ Diagnostics.failureOf_lua _ _) ?_
    exact Effects.mem_entriesOf_error _ _ [] []
  · exact finished_ends engine _

theorem Pool.run_ends (engine : v.engine = .lua) (p : Pool) (files : Files) :
    Session.Ending config s v sink (p.run files v sink).2 := by
  rw [Pool.run]
  split
  · refine .failed (.inr rfl) (engine ▸ Diagnostics.failureOf_lua _ _) ?_
    exact Effects.mem_entriesOf_error _ _ [] []
  · rw [Pool.runText]
    dsimp only
    refine (Interpreter.run_ends engine _ _).of_entriesOf ?_
    rw [Effects.entriesOf_append, Effects.entriesOf_append, Effects.entriesOf_map_log,
      Effects.entriesOf_map_log, List.nil_append, List.append_nil]

end Lua

namespace Rhai.Embedded

variable {config : Config} {s : Session} {v : Invocation} {sink : Nat}

theorem failed_ends (engine : v.engine = .rhai) (message : String) (before : Effects) :
    Session.Ending config s v sink ((failed sink message).after before) := by
  refine .failed (.inl rfl) (engine ▸ Diagnostics.failureOf_rhai _) ?_
  exact Effects.mem_entriesOf_error _ _ before []

theorem runText_ends (engine : v.engine = .rhai) (e : Embedded) (files : Files)
    (source : String) : Session.Ending config s v sink (e.runText files v sink source).2 := by
  rw [runText]
  split
  · exact failed_ends engine _ []
  · dsimp only
    split
    · exact failed_ends engine _ _
    · exact .published (.inr engine)
    · exact .published (.inr engine)

theorem run_ends (engine : v.engine = .rhai) (e : Embedded) (files : Files) :
    Session.Ending config s v sink (e.run files v sink).2 := by
  rw [run]
  dsimp only
  split
  · exact failed_ends engine _ _
  · exact (runText_ends engine _ files _).after_log _

end Rhai.Embedded

/-! ## All handlers -/

namespace Session

/-- **How runs end.** No handler of a session panics, and each comes to one of the ends. -/
theorem handler_ends (config : Config) (s : Session) (files : Files) (v : Invocation)
    (sink : Nat) :
    ∃ s' e, (handler config v.engine).run s files v sink = (s', .finished e) ∧
      Ending config s v sink e := by
  cases h : v.engine with
  | lua => exact ⟨_, _, rfl, Lua.Pool.run_ends h s.pool files⟩
  | rhai => exact ⟨_, _, rfl, Rhai.Embedded.run_ends h s.embedded files⟩
  | wat => exact ⟨_, _, rfl, runSource_ends (.inl h) s.registry files _ _⟩
  | wast => exact ⟨_, _, rfl, runSource_ends (.inr h) s.registry files _ _⟩
  | binary => exact ⟨_, _, rfl, runBinary_ends h s.registry files⟩
  | workflow => exact ⟨_, _, rfl, runWorkflow_ends h⟩
  | ruby => exact ⟨_, _, rfl, .declined (.inr (.inl rfl))⟩
  | nodeGraph => exact ⟨_, _, rfl, .declined (.inr (.inl rfl))⟩

/-- What a host finds after a dispatch is what the run has ended with. -/
theorem dispatch_eq {config : Config} {s s' : Session} {files : Files} {job : Job} {e : Execution}
    (h : (handler config job.invocation.engine).run s files job.invocation job.sink =
      (s', .finished e)) :
    (dispatcher config).dispatch s files job =
      (s', { job with report := e.report }, e.outcome, e.effects ++ [.log e.outcome.event]) := by
  simp only [Dispatcher.dispatch, dispatcher, h, Handler.settle]

end Session

/-! ## What a host finds after a dispatch -/

/-- The fields of a report go with the invocation and with the outcome. -/
structure Report.Fits (r : Report) (v : Invocation) (outcome : Outcome) : Prop where
  diagnostics : ¬ r.diagnostics.isEmpty ↔ outcome = .executionFailed ∨ outcome = .compileFailed
  interpreter : r.diagnostics.interpreter ≠ none → v.engine = .lua
  runtime : r.diagnostics.runtime ≠ none → v.engine ≠ .rhai
  embedded : r.diagnostics.embedded ≠ none → v.engine = .rhai
  results : r.results ≠ [] → outcome = .succeeded ∧ (v.engine = .lua ∨ v.engine = .rhai)
  status : r.status ≠ none ↔ outcome = .succeeded ∧ v.RunsCommand
  message : r.status = none → r.message = ""

/-- The jobs of a session as they are dispatched one after the other, each with the files that there
are then. -/
def Dispatcher.serve {σ : Type} (d : Dispatcher σ) (state : σ) :
    List (Files × Job) → List (Job × Outcome × Effects)
  | [] => []
  | (files, job) :: rest =>
    let (next, answer) := d.dispatch state files job
    answer :: d.serve next rest

namespace Report.Fits

variable {v : Invocation} {outcome : Outcome}

/-- A failure leaves its diagnostics and nothing else. -/
theorem of_failure {d : Diagnostics} (h : d.FailureOf v.engine)
    (failed : outcome = .executionFailed ∨ outcome = .compileFailed) :
    Fits { diagnostics := d } v outcome where
  diagnostics := iff_of_true h.nonempty failed
  interpreter := h.interpreter
  runtime := h.runtime
  embedded := h.embedded
  results hr := absurd rfl hr
  status := by
    refine iff_of_false (fun hs => hs rfl) ?_
    rintro ⟨rfl, -⟩
    rcases failed with h | h <;> cases h
  message _ := rfl

/-- Without a failure there are no diagnostics, and the rest is a matter of the engine. -/
theorem of_clean {results : List (String × Json)} {message : String} {status : Option Status}
    (failed : ¬ (outcome = .executionFailed ∨ outcome = .compileFailed))
    (hresults : results ≠ [] → outcome = .succeeded ∧ (v.engine = .lua ∨ v.engine = .rhai))
    (hstatus : status ≠ none ↔ outcome = .succeeded ∧ v.RunsCommand)
    (hmessage : status = none → message = "") :
    Fits { results, message, status } v outcome where
  diagnostics := iff_of_false (fun h => h rfl) failed
  interpreter h := absurd rfl h
  runtime h := absurd rfl h
  embedded h := absurd rfl h
  results := hresults
  status := hstatus
  message := hmessage

end Report.Fits

namespace Session

variable {config : Config} {s : Session} {v : Invocation} {sink : Nat} {e : Execution}

/-- However a run ends, its report goes with it. -/
theorem Ending.fits (h : Ending config s v sink e) : e.report.Fits v e.outcome := by
  cases h with
  | published engine =>
    refine .of_clean (by simp) (fun _ => ⟨rfl, engine⟩) ?_ fun _ => rfl
    refine iff_of_false (fun h => h rfl) ?_
    rintro ⟨-, h | h | ⟨h | h, -⟩⟩ <;> rw [h] at engine <;> simp at engine
  | returned command =>
    refine .of_clean (by simp) (fun h => absurd rfl h) ?_ fun h => absurd h (by simp)
    exact iff_of_true (by simp) ⟨rfl, command⟩
  | handled engine interface =>
    refine .of_clean (by simp) (fun h => absurd rfl h) ?_ fun _ => rfl
    refine iff_of_false (fun h => h rfl) ?_
    rintro ⟨-, h | h | ⟨-, h⟩⟩
    · rw [h] at engine
      simp at engine
    · rw [h] at engine
      simp at engine
    · rw [h] at interface
      cases interface
  | declined declined =>
    rcases declined with rfl | rfl | rfl <;>
      exact .of_clean (by simp) (fun h => absurd rfl h) (by simp) fun _ => rfl
  | failed failed failureOf written => exact .of_failure failureOf failed
  | unwritten unwritten silent =>
    refine .of_failure (Diagnostics.failureOf_runtime ?_ _) (.inl rfl)
    rcases unwritten with ⟨h, -⟩ | ⟨h, -⟩ <;> rw [h] <;> decide

/-- What is left after a dispatch goes with its outcome, whatever there was before. -/
theorem dispatch_fits (config : Config) (s : Session) (files : Files) (job : Job) :
    let (_, after, outcome, _) := (dispatcher config).dispatch s files job
    after.invocation = job.invocation ∧ after.report.Fits job.invocation outcome := by
  obtain ⟨s', e, hrun, hends⟩ := handler_ends config s files job.invocation job.sink
  rw [dispatch_eq hrun]
  exact ⟨rfl, hends.fits⟩

/-- **Reports go with outcomes.** In a session of any dispatches, of jobs that may have been
dispatched before, each report goes with the invocation and the outcome. -/
theorem serve_fits (config : Config) (s : Session) (dispatches : List (Files × Job)) :
    ∀ answer ∈ (dispatcher config).serve s dispatches,
      answer.1.report.Fits answer.1.invocation answer.2.1 := by
  induction dispatches generalizing s with
  | nil => simp [Dispatcher.serve]
  | cons first rest ih =>
    obtain ⟨files, job⟩ := first
    have hfirst := dispatch_fits config s files job
    rw [Dispatcher.serve]
    generalize (dispatcher config).dispatch s files job = done at hfirst ⊢
    obtain ⟨next, after, outcome, effects⟩ := done
    obtain ⟨hsame, hfits⟩ := hfirst
    intro answer hanswer
    rcases List.mem_cons.1 hanswer with rfl | hanswer
    · exact hsame ▸ hfits
    · exact ih next answer hanswer

/-- A job that has succeeded once and is dispatched again, without the module that it needs. -/
def staleJob : Job where
  invocation := { engine := .workflow, path := "nightly.flow" }
  report := { message := "done", status := some .succeeded }

/-- It fails, and nothing is left of the status that was reported before. -/
theorem serve_fits_staleJob :
    ∃ answer ∈ (dispatcher {}).serve {} [(.empty, staleJob)],
      answer.2.1 = .executionFailed ∧ answer.1.report.status = none ∧
        answer.1.report.Fits answer.1.invocation answer.2.1 := by
  have hfits := serve_fits {} {} [(.empty, staleJob)]
  exact ⟨_, List.mem_cons_self, rfl, rfl, hfits _ List.mem_cons_self⟩

/-! ## What reaches the sink -/

/-- Diagnostics do not reach a sink that nothing is written to. -/
theorem not_reaches_of_silent {d : Diagnostics} {es : Effects} (nonempty : d.sections ≠ [])
    (silent : es.entriesOf sink = []) : ¬ d.Reaches sink es := by
  intro h
  obtain ⟨part, hpart⟩ := List.exists_mem_of_ne_nil _ nonempty
  obtain ⟨before, after, hmem⟩ := h part hpart
  rw [silent] at hmem
  exact absurd hmem List.not_mem_nil

/-- A failure before the module is found is in the report alone. -/
theorem unwritten_run (files : Files) (h : Unwritten config s v) :
    ∃ text effects, (handler config v.engine).run s files v sink =
        (s, .finished ⟨.executionFailed, { diagnostics := { runtime := some text } }, effects⟩) ∧
      effects.entriesOf sink = [] := by
  rcases h with ⟨hv, e, he, hne⟩ | ⟨hv, hf⟩
  · have hrun : s.registry.runBinary files v sink = (s.registry,
        ⟨.executionFailed, { diagnostics := { runtime := some e.message } },
          [.notify ⟨"Invalid binary address", e.message⟩]⟩) := by
      rw [Registry.runBinary, he]
      cases e with
      | empty => exact absurd rfl hne
      | missingModule _ | emptyTypeName _ => rfl
    rw [hv]
    refine ⟨e.message, [.notify ⟨"Invalid binary address", e.message⟩], ?_, rfl⟩
    simp only [handler, onRegistry, Handler.steady, hrun]
  · rw [hv]
    simp only [handler, onRegistry, Handler.steady, Registry.runWorkflow, hf]
    exact ⟨_, _, rfl, rfl⟩

/-- **What reaches the sink.** After a dispatch in whatever session, the diagnostics have been written
to the sink of the job, each under its banner, if and only if the run has not failed before its module
was found. -/
theorem reaches_iff_not_unwritten (config : Config) (s : Session) (files : Files) (job : Job) :
    let (_, after, _, effects) := (dispatcher config).dispatch s files job
    after.report.diagnostics.Reaches job.sink effects ↔ ¬ Unwritten config s job.invocation := by
  have hlog (es : Effects) (event : Log.Event) :
      Effects.entriesOf job.sink (es ++ [.log event]) = es.entriesOf job.sink := by
    rw [Effects.entriesOf_append]
    exact List.append_nil _
  have hclean (es : Effects) : Diagnostics.Reaches {} job.sink es := by
    simp [Diagnostics.Reaches, Diagnostics.sections]
  obtain ⟨s', e, hrun, hends⟩ := handler_ends config s files job.invocation job.sink
  rw [dispatch_eq hrun]
  constructor
  · intro hreaches hunwritten
    obtain ⟨text, effects, hrun', hsilent⟩ := unwritten_run files hunwritten
    cases hrun.symm.trans hrun'
    have hsome : Diagnostics.sections { runtime := some text } ≠ [] := List.cons_ne_nil _ _
    exact not_reaches_of_silent hsome (by rw [hlog, hsilent]) hreaches
  · intro hwritten
    cases hends with
    | published | returned | handled | declined => exact hclean _
    | failed failed failureOf written => exact Diagnostics.reaches_of_render (by rwa [hlog])
    | unwritten unwritten silent => exact absurd unwritten hwritten

/-- The module of workflows is not registered in a new session, and an address without the path of a
module is none: of both failures nothing is written. -/
theorem not_reaches_unregistered :
    let dispatches := (dispatcher {}).serve {}
      [(.empty, { invocation := { engine := .workflow, path := "nightly.flow" } }),
        (.empty, { invocation :=
          { engine := .binary, path := "launcher.wasm", address := "::Tool" } })]
    dispatches.length = 2 ∧ ∀ answer ∈ dispatches,
      ¬ answer.1.report.diagnostics.isEmpty ∧
        ¬ answer.1.report.diagnostics.Reaches answer.1.sink answer.2.2 := by
  refine ⟨rfl, fun answer h => ?_⟩
  rcases List.mem_cons.1 h with he | h
  · rw [he]
    exact ⟨by decide, not_reaches_of_silent (by decide) rfl⟩
  · rw [List.mem_singleton.1 h]
    exact ⟨by decide, not_reaches_of_silent (by decide) rfl⟩

end Session

end ScriptHost

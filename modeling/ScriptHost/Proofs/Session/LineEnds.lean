import ScriptHost.Proofs.Session.Endings
import ScriptHost.Proofs.Text.Newline

/-!
# Line ends in diagnostics

Hosts know one line end only, so the text of a failure is normalized before it is kept. Whatever runs
a module or a script does so. Three failures are told before anything is run, in words that quote what
the host has given: an address that is none, a module of workflows that is not registered, and the path
of a Lua script that cannot be read. These texts are kept as they are (`Session.Verbatim`). It is the
only way for a carriage return to get into diagnostics (`Session.normalized_iff_not_verbatim`), and it
does get there (`Session.not_normalized_verbatim`).
-/

namespace ScriptHost

/-! ## Texts that quote others -/

/-- A character that the words around a text do not have is in all of it if it is in the text. -/
theorem mem_toList_quoting {c : Char} {before after : String} (hb : c ∉ before.toList)
    (ha : c ∉ after.toList) (text : String) :
    c ∈ (before ++ text ++ after).toList ↔ c ∈ text.toList := by
  simp [hb, ha]

namespace Address

/-- An address that is none is empty without the blanks around it, or quoted without them. -/
theorem error_cases {text : String} {e : Error} (h : parse text = .error e) :
    (Text.trimBlanks text.toList = [] ∧ e = .empty) ∨
      e = .emptyTypeName (String.ofList (Text.trimBlanks text.toList)) ∨
      e = .missingModule (String.ofList (Text.trimBlanks text.toList)) := by
  unfold parse at h
  dsimp only at h
  split at h
  next hempty => exact .inl ⟨hempty, (Except.error.inj h).symm⟩
  next =>
    split at h
    next => cases h
    next =>
      split at h
      next => exact .inr (.inl (Except.error.inj h).symm)
      next =>
        split at h
        next => exact .inr (.inr (Except.error.inj h).symm)
        next => cases h

theorem mem_message_iff {text : String} {e : Error} (h : parse text = .error e) :
    '\r' ∈ e.message.toList ↔ '\r' ∈ Text.trimBlanks text.toList := by
  rcases error_cases h with ⟨hempty, rfl⟩ | rfl | rfl
  · rw [hempty]
    decide
  · show '\r' ∈ ("binary address \x60" ++ String.ofList (Text.trimBlanks text.toList) ++
      "\x60 has an empty type name").toList ↔ _
    rw [mem_toList_quoting (by decide) (by decide), String.toList_ofList]
  · show '\r' ∈ ("binary address \x60" ++ String.ofList (Text.trimBlanks text.toList) ++
      "\x60 has no module path").toList ↔ _
    rw [mem_toList_quoting (by decide) (by decide), String.toList_ofList]

end Address

namespace Diagnostics

/-- No text has a carriage return. -/
structure Normalized (d : Diagnostics) : Prop where
  interpreter : ∀ text ∈ d.interpreter, '\r' ∉ text.toList
  runtime : ∀ text ∈ d.runtime, '\r' ∉ text.toList
  embedded : ∀ text ∈ d.embedded, '\r' ∉ text.toList

theorem normalized_empty : Normalized {} := ⟨nofun, nofun, nofun⟩

theorem normalized_interpreter_iff {text : String} :
    Normalized { interpreter := some text } ↔ '\r' ∉ text.toList := by
  refine ⟨fun h => h.interpreter text rfl, fun h => ⟨?_, nofun, nofun⟩⟩
  rintro _ ⟨⟩
  exact h

theorem normalized_runtime_iff {text : String} :
    Normalized { runtime := some text } ↔ '\r' ∉ text.toList := by
  refine ⟨fun h => h.runtime text rfl, fun h => ⟨nofun, ?_, nofun⟩⟩
  rintro _ ⟨⟩
  exact h

theorem normalized_embedded_iff {text : String} :
    Normalized { embedded := some text } ↔ '\r' ∉ text.toList := by
  refine ⟨fun h => h.embedded text rfl, fun h => ⟨nofun, nofun, ?_⟩⟩
  rintro _ ⟨⟩
  exact h

end Diagnostics

open Text.Newline (not_mem_normalize)

/-! ## Modules -/

section

variable {v : Invocation} {sink : Nat}

/-- A failure of the host is normalized, whatever was done before it. -/
theorem normalized_failed (outcome : Outcome) (title message : String) (before : Effects) :
    ((failed outcome title sink message).after before).report.diagnostics.Normalized :=
  Diagnostics.normalized_runtime_iff.2 (not_mem_normalize message)

theorem normalized_runCommand (c : Wasm.Compiled) (required : Option String) (handles : Handles)
    (references : List Wasm.Compiled) :
    (runCommand c required handles references sink).report.diagnostics.Normalized := by
  unfold runCommand
  split
  · exact Diagnostics.normalized_empty
  · split
    · exact normalized_failed _ _ _ _
    · exact Diagnostics.normalized_empty

theorem normalized_runEventHandler (c : Wasm.Compiled) (handles : Handles)
    (references : List Wasm.Compiled) :
    (runEventHandler c handles references sink).report.diagnostics.Normalized := by
  rw [runEventHandler]
  dsimp only
  split
  · exact Diagnostics.normalized_empty
  · split
    · exact Diagnostics.normalized_empty
    · exact normalized_failed _ _ _ _

theorem normalized_runInterface (c : Wasm.Compiled) (interface : Interface) (handles : Handles)
    (references : List Wasm.Compiled) :
    (runInterface c interface handles references sink).report.diagnostics.Normalized := by
  cases interface with
  | command => exact normalized_runCommand c none handles references
  | eventHandler => exact normalized_runEventHandler c handles references
  | availability => exact Diagnostics.normalized_empty

theorem normalized_runSource (r : Registry) (files : Files) (paths defines : List String) :
    (r.runSource files paths defines v sink).2.report.diagnostics.Normalized := by
  rw [Registry.runSource]
  dsimp only
  split
  · exact normalized_failed _ _ _ _
  · exact normalized_runInterface _ _ _ _

theorem normalized_runAddress (r : Registry) (files : Files) (a : Address) :
    (r.runAddress files a v sink).2.report.diagnostics.Normalized := by
  rw [Registry.runAddress]
  dsimp only
  split
  · exact normalized_failed _ _ _ _
  · exact normalized_runCommand _ _ _ _

theorem normalized_runBinary_iff (r : Registry) (files : Files) :
    (r.runBinary files v sink).2.report.diagnostics.Normalized ↔
      ¬ ('\r' ∈ Text.trimBlanks v.address.toList ∧ ∃ e, Address.parse v.address = .error e) := by
  rw [Registry.runBinary]
  split
  next he =>
    -- an empty address is quoted nowhere
    refine iff_of_true Diagnostics.normalized_empty fun h => ?_
    rw [← Address.mem_message_iff he] at h
    exact absurd h.1 (by decide)
  next e _ he =>
    rw [and_iff_left ⟨e, he⟩, ← Address.mem_message_iff he]
    exact Diagnostics.normalized_runtime_iff
  next a ha =>
    exact iff_of_true (normalized_runAddress r files a) fun h => by simp [ha] at h

theorem normalized_runWorkflow_iff (r : Registry) (settings : Config.Workflow) :
    (r.runWorkflow settings v sink).report.diagnostics.Normalized ↔
      ¬ ('\r' ∈ settings.module.toList ∧ r.find? settings.module = none) := by
  rw [Registry.runWorkflow]
  split
  next hf =>
    rw [and_iff_left hf]
    refine Diagnostics.normalized_runtime_iff.trans (not_congr ?_)
    exact mem_toList_quoting (by decide) (by decide) settings.module
  next c hf =>
    exact iff_of_true (normalized_runCommand _ _ _ _) fun h => by simp [hf] at h

end

/-! ## Interpreters -/

namespace Lua

variable {v : Invocation} {sink : Nat}

theorem Interpreter.normalized_finished (ended : Ended) :
    (finished v sink ended).2.report.diagnostics.Normalized := by
  have hfailed (s : Store) (texts : String × String) :
      (failed s sink texts).2.report.diagnostics.Normalized := by
    refine ⟨?_, ?_, nofun⟩
    · rintro _ ⟨⟩
      exact not_mem_normalize texts.1
    · rintro _ ⟨⟩
      exact not_mem_normalize texts.2
  unfold finished
  split
  · exact Diagnostics.normalized_empty
  · split
    · exact Diagnostics.normalized_empty
    · exact hfailed _ _
  · exact hfailed _ _

theorem Interpreter.normalized_run (i : Interpreter) (source : String) :
    (i.run v sink source).2.report.diagnostics.Normalized := by
  show (runPrepared (prepared i.store v sink) v sink source).2.report.diagnostics.Normalized
  rw [runPrepared]
  split
  · exact Diagnostics.normalized_interpreter_iff.2 (not_mem_normalize _)
  · exact normalized_finished _

theorem Pool.normalized_run_iff (p : Pool) (files : Files) :
    (p.run files v sink).2.report.diagnostics.Normalized ↔
      ¬ ('\r' ∈ v.path.toList ∧ ∃ fault, files.readText v.path = .error fault) := by
  rw [Pool.run]
  split
  next fault hfault =>
    have hbehind : '\r' ∉ (": " ++ fault.message).toList := by cases fault <;> decide +kernel
    rw [and_iff_left ⟨fault, hfault⟩]
    refine Diagnostics.normalized_interpreter_iff.trans (not_congr ?_)
    rw [String.append_assoc]
    exact mem_toList_quoting (by decide) hbehind v.path
  next source hsource =>
    refine iff_of_true ?_ fun h => by simp [hsource] at h
    rw [Pool.runText]
    dsimp only
    exact Interpreter.normalized_run _ _

end Lua

namespace Rhai.Embedded

variable {v : Invocation} {sink : Nat}

theorem normalized_runText (e : Embedded) (files : Files) (source : String) :
    (e.runText files v sink source).2.report.diagnostics.Normalized := by
  rw [runText]
  split
  · exact Diagnostics.normalized_embedded_iff.2 (not_mem_normalize _)
  · dsimp only
    split
    · exact Diagnostics.normalized_embedded_iff.2 (not_mem_normalize _)
    · exact Diagnostics.normalized_empty
    · exact Diagnostics.normalized_empty

theorem normalized_run (e : Embedded) (files : Files) :
    (e.run files v sink).2.report.diagnostics.Normalized := by
  rw [run]
  dsimp only
  split
  next => exact Diagnostics.normalized_embedded_iff.2 (not_mem_normalize _)
  next source _ => exact normalized_runText (e.lock.1.attach sink) files source

end Rhai.Embedded

/-! ## All handlers -/

namespace Session

/-- A failure that is told in words which quote a text with a carriage return: the address, the name
of the module of workflows, or the path of a Lua script. -/
def Verbatim (config : Config) (s : Session) (files : Files) (v : Invocation) : Prop :=
  (v.engine = .binary ∧ '\r' ∈ Text.trimBlanks v.address.toList ∧
    ∃ e, Address.parse v.address = .error e) ∨
  (v.engine = .workflow ∧ '\r' ∈ config.workflow.module.toList ∧
    s.registry.find? config.workflow.module = none) ∨
  (v.engine = .lua ∧ '\r' ∈ v.path.toList ∧ ∃ fault, files.readText v.path = .error fault)

/-- Every handler comes back with an execution whose diagnostics are normalized unless its failure is
told verbatim. -/
theorem handler_normalized_iff (config : Config) (s : Session) (files : Files) (v : Invocation)
    (sink : Nat) :
    ∃ s' e, (handler config v.engine).run s files v sink = (s', .finished e) ∧
      (e.report.diagnostics.Normalized ↔ ¬ Verbatim config s files v) := by
  cases h : v.engine with
  | lua =>
    refine ⟨_, _, rfl, (Lua.Pool.normalized_run_iff s.pool files).trans (not_congr ?_)⟩
    simp [Verbatim, h]
  | rhai =>
    refine ⟨_, _, rfl, iff_of_true (Rhai.Embedded.normalized_run s.embedded files) ?_⟩
    simp [Verbatim, h]
  | wat =>
    refine ⟨_, _, rfl, iff_of_true (normalized_runSource s.registry files _ _) ?_⟩
    simp [Verbatim, h]
  | wast =>
    refine ⟨_, _, rfl, iff_of_true (normalized_runSource s.registry files _ _) ?_⟩
    simp [Verbatim, h]
  | binary =>
    refine ⟨_, _, rfl, (normalized_runBinary_iff s.registry files).trans (not_congr ?_)⟩
    simp [Verbatim, h]
  | workflow =>
    refine ⟨_, _, rfl, (normalized_runWorkflow_iff s.registry config.workflow).trans (not_congr ?_)⟩
    simp [Verbatim, h]
  | ruby =>
    refine ⟨_, _, rfl, iff_of_true Diagnostics.normalized_empty ?_⟩
    simp [Verbatim, h]
  | nodeGraph =>
    refine ⟨_, _, rfl, iff_of_true Diagnostics.normalized_empty ?_⟩
    simp [Verbatim, h]

/-- **Line ends in diagnostics.** After a dispatch in whatever session, no text of the diagnostics has
a carriage return if and only if the run has not failed in one of the three ways that are told
verbatim, with a carriage return in what is quoted. -/
theorem normalized_iff_not_verbatim (config : Config) (s : Session) (files : Files) (job : Job) :
    let (_, after, _, _) := (dispatcher config).dispatch s files job
    after.report.diagnostics.Normalized ↔ ¬ Verbatim config s files job.invocation := by
  obtain ⟨s', e, hrun, hiff⟩ := handler_normalized_iff config s files job.invocation job.sink
  rw [dispatch_eq hrun]
  exact hiff

/-- An address without a type and the name of a module that is not registered, each with a carriage
return that is found in the diagnostics. -/
theorem not_normalized_verbatim :
    let dispatches := (dispatcher { workflow := { module := "work\rflow" } }).serve {}
      [(.empty, { invocation := { engine := .binary, path := "launcher.wasm", address := "a\rb::" } }),
        (.empty, { invocation := { engine := .workflow, path := "nightly.flow" } })]
    dispatches.length = 2 ∧ ∀ answer ∈ dispatches, ¬ answer.1.report.diagnostics.Normalized := by
  refine ⟨rfl, fun answer h hnormalized => ?_⟩
  rcases List.mem_cons.1 h with he | h
  · rw [he] at hnormalized
    exact absurd (hnormalized.runtime _ rfl) (by decide +kernel)
  · rw [List.mem_singleton.1 h] at hnormalized
    exact absurd (hnormalized.runtime _ rfl) (by decide +kernel)

end Session

end ScriptHost

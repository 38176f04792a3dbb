import ScriptHost.Handler.Lua
import ScriptHost.Proofs.Lua.Interchange
import ScriptHost.Proofs.Lua.Running

/-!
# Executions on renamed stores

What an interpreter makes of a run does not depend on where things stand in its store
(`Interpreter.execute_renamed`): outcome, report and effects are the same, but for the sinks that
are renamed.

It follows that a run never gives up a place of its store: whatever code refers to by its place is
there afterwards (`Store.Founded.runPrepared`). No step has to be looked at for this: a run that
gave up a place could use it again, while on a store that has one place more it could not, and runs
do not tell such stores apart (`Interpreter.runPrepared_renamed`).
-/

namespace ScriptHost

/-- An effect on another sink. -/
def Effect.renameSink (σ : Nat → Nat) : Effect → Effect
  | write sink entry => write (σ sink) entry
  | notify notice => notify notice
  | log event => log event

/-- An execution whose writes go to other sinks. -/
def Execution.renameSinks (σ : Nat → Nat) (e : Execution) : Execution :=
  { e with effects := e.effects.map (Effect.renameSink σ) }

namespace Lua.Interpreter

variable {ρ : Renaming} {s t : Store}

/-! ## Results -/

theorem resultName?_rename (key : Value) : resultName? (key.rename ρ) = resultName? key := by
  cases key <;> rfl

theorem copyResults_renamed (h : s.Renamed ρ t) (pairs : List (Value × Value))
    (acc : List (String × Json) × List Log.Event) :
    copyResults t (pairs.map (renamePair ρ)) acc = copyResults s pairs acc := by
  induction pairs generalizing acc with
  | nil => rfl
  | cons pair rest ih =>
    obtain ⟨key, value⟩ := pair
    obtain ⟨results, events⟩ := acc
    simp only [List.map_cons, renamePair, copyResults, resultName?_rename, h.toJson]
    cases resultName? key with
    | none => rfl
    | some name => cases s.toJson value <;> exact ih _

theorem results_renamed (h : s.Renamed ρ t) : results t = results s := by
  have hscope : (t.table scopeAddress).getString "__result__" =
      ((s.table scopeAddress).getString "__result__").rename ρ := by
    rw [h.table_fixed (by decide), Table.getString_rename]
  rw [results, results, hscope]
  cases (s.table scopeAddress).getString "__result__" with
  | table a =>
    simp only [Value.rename_table, h.table, Table.pairs_rename]
    exact copyResults_renamed h _ _
  | _ => rfl

/-! ## Failures -/

theorem convertedText_renamed (e : Value) {x y : Ended} (h : x.Renamed ρ y) :
    (convertedText e x).1.Renamed ρ (convertedText (e.rename ρ) y).1 ∧
      (convertedText (e.rename ρ) y).2 = (convertedText e x).2 := by
  have hplain {s t : Store} (h : s.Renamed ρ t) :
      shown (t.plainText (e.rename ρ)) = shown (s.plainText e) := congrArg shown (h.plainText e)
  cases h with
  | @returned s t vs ws h hv =>
    subst hv
    obtain _ | ⟨v, rest⟩ := vs
    · exact ⟨h, hplain h⟩
    · cases v with
      | string bs => exact ⟨h, rfl⟩
      | _ => exact ⟨h, hplain h⟩
  | failed h => exact ⟨h, hplain h⟩
  | outOfSteps h => exact ⟨h, hplain h⟩

theorem errorText_renamed (h : s.Renamed ρ t) (e : Value) :
    (errorText s e).1.Renamed ρ (errorText t (e.rename ρ)).1 ∧
      (errorText t (e.rename ρ)).2 = (errorText s e).2 :=
  convertedText_renamed e (h.call (.builtin (.base .tostring)) [e])

theorem describe_renamed (h : s.Renamed ρ t) (e : Value) :
    (describe s e).1.Renamed ρ (describe t (e.rename ρ)).1 ∧
      (describe t (e.rename ρ)).2 = (describe s e).2 := by
  have hother : (errorText s e).1.Renamed ρ (errorText t (e.rename ρ)).1 ∧
      describedAs (errorText t (e.rename ρ)).2 t.traceback =
        describedAs (errorText s e).2 s.traceback := by
    rw [(errorText_renamed h e).2, h.traceback]
    exact ⟨(errorText_renamed h e).1, rfl⟩
  have hplain := h.plainText e
  cases e with
  | failure a =>
    rw [Value.rename_failure] at hplain
    refine ⟨h, ?_⟩
    simp only [Value.rename_failure, describe, hplain, h.failure, describeFailure, h.traceback]
  | _ => exact hother

theorem exitStatus?_renamed (h : s.Renamed ρ t) (e : Value) :
    exitStatus? t (e.rename ρ) = exitStatus? s e := by
  cases e with
  | failure a => simp only [Value.rename_failure, exitStatus?, h.failure]
  | _ => rfl

/-! ## Runs -/

theorem takeWritten_renamed (h : s.Renamed ρ t) :
    (takeWritten s).1.Renamed ρ (takeWritten t).1 ∧
      (takeWritten t).2 = (takeWritten s).2.map (Effect.renameSink ρ.sinks) := by
  refine ⟨{ h with written := rfl }, ?_⟩
  rw [takeWritten, takeWritten, h.written]
  simp [Written.rename, Effect.renameSink, Function.comp_def]

/-- Both runs leave renamed stores, and have gone alike but for the sinks. -/
def Alike (ρ : Renaming) (x y : Store × Execution) : Prop :=
  x.1.Renamed ρ y.1 ∧ y.2 = x.2.renameSinks ρ.sinks

theorem map_log_renameSink (σ : Nat → Nat) (events : List Log.Event) :
    (events.map Effect.log).map (Effect.renameSink σ) = events.map Effect.log := by
  simp [Effect.renameSink, Function.comp_def]

theorem succeeded_renamed (h : s.Renamed ρ t) : Alike ρ (succeeded s) (succeeded t) := by
  obtain ⟨hs, hw⟩ := takeWritten_renamed h
  refine ⟨hs, ?_⟩
  simp only [succeeded, Execution.renameSinks, results_renamed hs, hw, List.map_append,
    map_log_renameSink]

theorem exited_renamed (h : s.Renamed ρ t) (v : Invocation) (status : Int) :
    Alike ρ (exited s v status) (exited t v status) := by
  obtain ⟨hs, hw⟩ := takeWritten_renamed h
  refine ⟨hs, ?_⟩
  simp only [exited, Execution.renameSinks, hw, List.map_append]
  rfl

theorem failed_renamed (h : s.Renamed ρ t) (sink : Nat) {texts texts' : String × String}
    (ht : texts' = texts) : Alike ρ (failed s sink texts) (failed t (ρ.sinks sink) texts') := by
  subst ht
  obtain ⟨hs, hw⟩ := takeWritten_renamed h
  refine ⟨hs, ?_⟩
  simp only [failed, Execution.renameSinks, hw, List.map_append]
  rfl

theorem finished_renamed (v : Invocation) (sink : Nat) {x y : Ended} (h : x.Renamed ρ y) :
    Alike ρ (finished v sink x) (finished v (ρ.sinks sink) y) := by
  cases h with
  | returned h => exact succeeded_renamed h
  | @failed s t e f h hv =>
    subst hv
    rw [finished, finished, exitStatus?_renamed h]
    cases exitStatus? s e with
    | some status => exact exited_renamed h v status
    | none =>
      obtain ⟨hd, htexts⟩ := describe_renamed h e
      exact failed_renamed hd sink htexts
  | outOfSteps h => exact failed_renamed h sink rfl

/-- **Executions.** A script that has been loaded runs alike on renamed stores. -/
theorem execute_renamed (h : s.Renamed ρ t) (v : Invocation) (sink : Nat) (main : Value) :
    Alike ρ (execute s v sink main) (execute t v (ρ.sinks sink) (main.rename ρ)) :=
  finished_renamed v sink (h.call main [])

/-- **Runs of texts.** A text runs alike on renamed stores that are prepared for it. -/
theorem runPrepared_renamed (h : s.Renamed ρ t) (v : Invocation) (sink : Nat)
    (source : String) :
    Alike ρ (runPrepared s v sink source) (runPrepared t v (ρ.sinks sink) source) := by
  have hscope : (Value.table scopeAddress).rename ρ = .table scopeAddress :=
    congrArg Value.table (ρ.tables_fixed _ (by decide))
  unfold runPrepared
  obtain ⟨e, hs, ht⟩ | ⟨s', t', f, hs, ht, h'⟩ := Basics.loaded_cases h (Bytes.ofString source)
    (chunkName v.path) (.table scopeAddress)
  · rw [hscope] at ht
    rw [hs, ht]
    exact ⟨h, rfl⟩
  · rw [hscope] at ht
    rw [hs, ht]
    exact execute_renamed h' v sink f

end Lua.Interpreter

end ScriptHost

namespace ScriptHost.Lua

/-! ## Renaming by a shift -/

/-- Leaves the first places alone and shifts the others, so that they lie behind so many. -/
def shift (base size a : Nat) : Nat := if a < base then a else a + (size - base)

theorem shift_injective (base size : Nat) : Function.Injective (shift base size) := by
  intro a b h
  unfold shift at h
  split at h <;> split at h <;> omega

theorem shift_lt {base a : Nat} (size : Nat) (h : a < base) : shift base size a = a := if_pos h

theorem shift_next {base size : Nat} (h : base ≤ size) (k : Nat) :
    shift base size (base + k) = size + k := by
  unfold shift
  split <;> omega

section

variable {α : Type} [Inhabited α] {f : α → α} {xs ys : Array α}

/-- An array goes on behind another one, of which it has all that the first has. -/
theorem Along.of_shift (hsize : xs.size ≤ ys.size) (hdefault : f default = default)
    (h : ∀ a < xs.size, ys.getD a default = f (xs.getD a default)) :
    Along (shift xs.size ys.size) f xs ys where
  get a := by
    by_cases ha : a < xs.size
    · rw [shift_lt _ ha, h a ha]
    · obtain ⟨k, rfl⟩ := Nat.exists_eq_add_of_le (Nat.le_of_not_lt ha)
      have hx : xs[xs.size + k]? = none := Array.getElem?_eq_none (Nat.le_add_right _ _)
      have hy : ys[ys.size + k]? = none := Array.getElem?_eq_none (Nat.le_add_right _ _)
      rw [shift_next hsize, Array.getD_eq_getD_getElem?, Array.getD_eq_getD_getElem?, hx, hy]
      exact hdefault.symm
  next k := shift_next hsize k

/-- The array renamed, with one more place behind it. -/
theorem Along.push_default (hdefault : f default = default) (xs : Array α) :
    Along (shift xs.size (xs.size + 1)) f xs ((xs.map f).push default) := by
  have hsize : ((xs.map f).push default).size = xs.size + 1 := by simp
  rw [← hsize]
  refine .of_shift (by omega) hdefault fun a ha => ?_
  rw [getD_push, if_neg (by simp; omega), ← hdefault, getD_map, hdefault]

/-- Where one place is left free, the first array cannot end before it. -/
theorem Along.le_size {n : Nat} (h : Along (shift n (n + 1)) f xs ys) : n ≤ xs.size := by
  refine Nat.le_of_not_lt fun hlt => ?_
  -- the places that come next correspond, so those at `n` would too
  have hfirst := h.size
  have hfree := h.next (n - xs.size)
  rw [shift_lt _ hlt] at hfirst
  rw [Nat.add_sub_cancel' (Nat.le_of_lt hlt)] at hfree
  have hskip : shift n (n + 1) n = n + 1 := shift_next (Nat.le_add_right n 1) 0
  omega

end

/-! ## Places that code refers to -/

/-- The store has everything that code refers to by its place. -/
structure Store.Founded (s : Store) : Prop where
  tables : Interpreter.fixedTables ≤ s.tables.size
  cells : Store.fixedCells ≤ s.cells.size
  threads : Store.mainThread < s.threads.size

/-- Leaves a place free behind all that a store holds. -/
def Renaming.beyond (s : Store) (h : s.Founded) : Renaming where
  tables := shift s.tables.size (s.tables.size + 1)
  closures := shift s.closures.size (s.closures.size + 1)
  cells := shift s.cells.size (s.cells.size + 1)
  threads := shift s.threads.size (s.threads.size + 1)
  failures := shift s.failures.size (s.failures.size + 1)
  serials := id
  sinks := id
  tables_injective := shift_injective _ _
  closures_injective := shift_injective _ _
  cells_injective := shift_injective _ _
  threads_injective := shift_injective _ _
  failures_injective := shift_injective _ _
  serials_injective := Function.injective_id
  sinks_injective := Function.injective_id
  tables_fixed _ ha := shift_lt _ (Nat.lt_of_lt_of_le ha h.tables)
  cells_fixed _ ha := shift_lt _ (Nat.lt_of_lt_of_le ha h.cells)
  threads_main := shift_lt _ h.threads

theorem Value.rename_injective (ρ : Renaming) : Function.Injective (Value.rename ρ) := by
  intro v w h
  cases v <;> cases w <;> simp_all [Value.rename]

namespace Store.Founded

variable {s : Store}

/-- There is a store with one more place for everything. -/
theorem exists_renamed (h : s.Founded) : ∃ t, s.Renamed (.beyond s h) t := by
  let ρ := Renaming.beyond s h
  refine ⟨{ s with
    tables := (s.tables.map (Table.rename ρ)).push default
    closures := (s.closures.map (Closure.rename ρ)).push default
    cells := (s.cells.map (Value.rename ρ)).push default
    threads := (s.threads.map (Thread.rename ρ)).push default
    failures := (s.failures.map id).push default
    written := s.written.map (Written.rename ρ)
    current := ρ.threads s.current
    layout := Function.extend (Value.rename ρ) s.layout s.layout }, ?_⟩
  exact {
    tables := .push_default Table.rename_empty s.tables
    closures := .push_default (congrArg (Closure.mk default) Array.map_empty) s.closures
    cells := .push_default rfl s.cells
    threads := .push_default rfl s.threads
    failures := .push_default rfl s.failures
    written := rfl
    current := rfl
    traceback := rfl
    layout := (Value.rename_injective ρ).extend_apply s.layout s.layout }

/-- A run keeps what code refers to by its place. -/
theorem runPrepared (h : s.Founded) (v : Invocation) (sink : Nat) (source : String) :
    (Interpreter.runPrepared s v sink source).1.Founded := by
  obtain ⟨t, ht⟩ := h.exists_renamed
  obtain ⟨hr, -⟩ := Interpreter.runPrepared_renamed ht v sink source
  exact {
    tables := Nat.le_trans h.tables (Along.le_size hr.tables)
    cells := Nat.le_trans h.cells (Along.le_size hr.cells)
    threads := Nat.lt_of_lt_of_le h.threads (Along.le_size hr.threads) }

end Store.Founded

end ScriptHost.Lua

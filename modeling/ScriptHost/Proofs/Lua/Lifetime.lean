import Mathlib.Data.List.Nodup
import Mathlib.Logic.Function.Basic
import ScriptHost.Lua.Pool
import ScriptHost.Proofs.Lua.Scope

/-!
# How long globals live

A pool keeps its idle interpreters in one list, but it works as if each document had a list of its
own (`Pool.idleOf`): what comes back is put in front of the list of its document, what is given out
is taken from there, and no other list changes. This is all that is known of a pool from there on.

Scripts run one after the other on interpreters of a pool. What a script finds in its scope goes
back to the run before it on the same interpreter, whatever ran elsewhere in between: all globals
that this run has left, if they were to be kept, and otherwise none
(`Pool.scope_at_start`). The names that every run has for itself hold its own values.
-/

/-! ## Idle interpreters -/

namespace ScriptHost.Lua.Pool

theorem takeFirst?_eq_some {document : String} {idle others : List Interpreter} {i : Interpreter}
    (h : takeFirst? document idle = some (i, others)) :
    ∃ before rest, idle = before ++ i :: rest ∧ others = before ++ rest ∧
      i.document = document ∧ ∀ j ∈ before, j.document ≠ document := by
  induction idle generalizing others with
  | nil => cases h
  | cons first rest ih =>
    rw [takeFirst?] at h
    split at h
    · rename_i hfirst
      cases h
      exact ⟨[], rest, rfl, rfl, hfirst, fun j hj => absurd hj List.not_mem_nil⟩
    · rename_i hfirst
      obtain ⟨⟨found, left⟩, hfound, heq⟩ := Option.map_eq_some_iff.1 h
      cases heq
      obtain ⟨before, behind, rfl, rfl, hdocument, hbefore⟩ := ih hfound
      refine ⟨first :: before, behind, rfl, rfl, hdocument, fun j hj => ?_⟩
      rcases List.mem_cons.1 hj with rfl | hj
      · exact hfirst
      · exact hbefore j hj

theorem takeFirst?_eq_none {document : String} {idle : List Interpreter}
    (h : takeFirst? document idle = none) : ∀ i ∈ idle, i.document ≠ document := by
  induction idle with
  | nil => exact fun i hi => absurd hi List.not_mem_nil
  | cons first rest ih =>
    rw [takeFirst?] at h
    split at h
    · cases h
    · rename_i hfirst
      intro i hi
      rcases List.mem_cons.1 hi with rfl | hi
      · exact hfirst
      · exact ih (Option.map_eq_none_iff.1 h) i hi

/-! ## By document -/

@[simp]
theorem mem_idleOf {p : Pool} {document : String} {i : Interpreter} :
    i ∈ p.idleOf document ↔ i ∈ p.idle ∧ i.document = document := by
  simp [idleOf]

theorem idleOf_release (p : Pool) (i : Interpreter) :
    (p.release i).idleOf = Function.update p.idleOf i.document (i :: p.idleOf i.document) := by
  funext document
  rw [Function.update_apply]
  by_cases h : i.document = document
  · simp [idleOf, release, h]
  · simp [idleOf, release, h, Ne.symm h]

theorem idleOf_without (p : Pool) (document : String) :
    (p.without document).idleOf = Function.update p.idleOf document [] := by
  funext other
  rw [Function.update_apply, idleOf, without, List.filter_filter]
  split
  · rename_i h
    refine List.filter_eq_nil_iff.2 fun i _ hi => ?_
    simp [h] at hi
  · rename_i h
    refine List.filter_congr fun i _ => ?_
    by_cases hi : i.document = other
    · simp [hi, h]
    · simp [hi]

theorem without_eq_self {p : Pool} {document : String} (h : ∀ i ∈ p.idle, i.document ≠ document) :
    p.without document = p := by
  rw [without, List.filter_eq_self.2 fun i hi => decide_eq_true (h i hi)]

/-- An interpreter that is given out is the first idle one of its document, or it is new. It is new
whenever the idle ones are to be dropped. -/
theorem acquire_cases (p : Pool) (document : String) (refresh : Bool) :
    (∃ before i rest, p.idle = before ++ i :: rest ∧ i.document = document ∧
      (∀ j ∈ before, j.document ≠ document) ∧ refresh = false ∧
      p.acquire document refresh = ({ p with idle := before ++ rest }, i)) ∨
    (refresh = true ∨ p.idleOf document = []) ∧
      p.acquire document refresh = (p.without document).make document := by
  cases refresh with
  | true =>
    refine .inr ⟨.inl rfl, ?_⟩
    rw [acquire, if_pos rfl]
    cases ht : takeFirst? document (p.without document).idle with
    | none => rfl
    | some found =>
      obtain ⟨before, rest, hidle, -, hdocument, -⟩ := takeFirst?_eq_some ht
      have hmem : found.1 ∈ (p.without document).idle := hidle ▸ by simp
      exact absurd hdocument (of_decide_eq_true (List.mem_filter.1 hmem).2)
  | false =>
    rw [acquire, if_neg Bool.false_ne_true]
    cases ht : takeFirst? document p.idle with
    | none =>
      have hnone := takeFirst?_eq_none ht
      refine .inr ⟨.inr (List.filter_eq_nil_iff.2 fun i hi => ?_), ?_⟩
      · simpa using hnone i hi
      · rw [without_eq_self hnone]
    | some found =>
      obtain ⟨before, rest, hidle, hothers, hdocument, hbefore⟩ := takeFirst?_eq_some ht
      exact .inl ⟨before, found.1, rest, hidle, hdocument, hbefore, rfl, by rw [← hothers]⟩

/-- While a document has idle interpreters, the first of them is given out and the others stay. -/
theorem acquire_reused {p : Pool} {document : String} {i : Interpreter} {rest : List Interpreter}
    (h : p.idleOf document = i :: rest) :
    ∃ q, p.acquire document false = (q, i) ∧ q.created = p.created ∧
      q.idleOf = Function.update p.idleOf document rest := by
  obtain ⟨before, first, behind, hidle, hdocument, hbefore, -, he⟩ | ⟨hnone, -⟩ :=
    p.acquire_cases document false
  · have hskip {other : String} (ho : other = document) :
        before.filter (fun j => j.document = other) = [] :=
      List.filter_eq_nil_iff.2 fun j hj => by simpa [ho] using hbefore j hj
    have hfound : p.idleOf document = first :: behind.filter fun j => j.document = document := by
      rw [idleOf, hidle, List.filter_append, hskip rfl, List.nil_append,
        List.filter_cons_of_pos (by simpa using hdocument)]
    obtain ⟨rfl, rfl⟩ := List.cons.inj (h.symm.trans hfound)
    refine ⟨_, he, rfl, ?_⟩
    funext other
    rw [Function.update_apply, idleOf, List.filter_append]
    split
    · rename_i ho
      rw [hskip ho, ho, List.nil_append]
    · rename_i ho
      rw [idleOf, hidle, List.filter_append, List.filter_cons_of_neg]
      simpa [hdocument] using Ne.symm ho
  · rcases hnone with hnone | hnone
    · cases hnone
    · rw [h] at hnone
      cases hnone

/-- If a document has none, or they are to be dropped, a new one is made. -/
theorem acquire_made {p : Pool} {document : String} {refresh : Bool}
    (h : refresh = true ∨ p.idleOf document = []) :
    p.acquire document refresh = (p.without document).make document := by
  obtain ⟨before, i, rest, hidle, hdocument, -, rfl, -⟩ | ⟨-, he⟩ := p.acquire_cases document refresh
  · have hi : i ∈ p.idleOf document := mem_idleOf.2 ⟨hidle ▸ by simp, hdocument⟩
    rcases h with h | h
    · cases h
    · rw [h] at hi
      cases hi
  · exact he

/-- An interpreter is given out for the document that it was made for. -/
theorem document_acquire (p : Pool) (document : String) (refresh : Bool) :
    (p.acquire document refresh).2.document = document := by
  obtain ⟨before, i, rest, -, hdocument, -, -, he⟩ | ⟨-, he⟩ := p.acquire_cases document refresh
  · rw [he]
    exact hdocument
  · rw [he]
    rfl

end ScriptHost.Lua.Pool

namespace ScriptHost.Lua

/-! ## What runs leave -/

open Interpreter (scopeAddress)

/-- A script that is to be run, with the files that there are then and the sink for its output. -/
structure Call where
  files : Files
  invocation : Invocation
  sink : Nat

/-- A run as it went: on which interpreter, whether that was made for it, how many tables were there
before, the store in which its main chunk has started, if it did, and the scope as it stopped. -/
structure Run where
  interpreter : Nat
  isNew : Bool
  invocation : Invocation
  tables : Nat
  start : Option Store
  stop : Table

/-- The run of a text on an interpreter, with `created` of them made before it was asked for. -/
def Interpreter.record (i : Interpreter) (created : Nat) (v : Invocation) (sink : Nat)
    (source : String) : Run where
  interpreter := i.id
  isNew := created < i.id
  invocation := v
  tables := i.store.tables.size
  start :=
    match Basics.loaded (prepared i.store v sink) (Bytes.ofString source) (chunkName v.path)
      (.table scopeAddress) with
    | .ok (s, _) => some s
    | .error _ => none
  stop := (i.run v sink source).1.scope

namespace Pool

/-- The pool after a call. -/
def perform (p : Pool) (c : Call) : Pool := (p.run c.files c.invocation c.sink).1

/-- The run of a text on the interpreter that the pool gives out for it. -/
def recordText (p : Pool) (v : Invocation) (sink : Nat) (source : String) : Run :=
  (p.acquire v.handles.document v.refresh).2.record p.created v sink (withoutMarks source)

/-- The run that a call leads to. There is none if the script cannot be read. -/
def runOf? (p : Pool) (c : Call) : Option Run :=
  match c.files.readText c.invocation.path with
  | .error _ => none
  | .ok source => some (p.recordText c.invocation c.sink source)

/-- The runs that calls lead to. -/
def runs (p : Pool) : List Call → List Run
  | [] => []
  | c :: rest => (p.runOf? c).toList ++ (p.perform c).runs rest

end Pool

/-- The last of the runs that was on an interpreter. -/
def lastOn (runs : List Run) (id : Nat) : Option Run :=
  runs.reverse.find? fun r => r.interpreter = id

/-- What a run leaves in the scope: everything, if globals are to be kept, or reserved names. -/
def Run.Leaves (r : Run) (t : Table) : Prop :=
  if r.invocation.keepGlobals then t.SameUnreserved r.stop else t.Bare

/-- The main chunk of the run finds its own values, and besides reserved names what the run before
it on the same interpreter has left: nothing if there is none, since the interpreter is new. -/
def Run.Continues (r : Run) (before : List Run) : Prop :=
  ∀ s, r.start = some s →
    Interpreter.Begins s r.tables r.invocation ∧
      (r.isNew → lastOn before r.interpreter = none ∧ (s.table scopeAddress).Bare) ∧
      (¬ r.isNew → ∃ last, lastOn before r.interpreter = some last ∧
        last.Leaves (s.table scopeAddress))

theorem Run.Leaves.of_sameUnreserved {r : Run} {t u : Table} (h : r.Leaves u)
    (hs : t.SameUnreserved u) : r.Leaves t := by
  rw [Run.Leaves] at h ⊢
  by_cases hk : r.invocation.keepGlobals
  · rw [if_pos hk] at h ⊢
    exact hs.trans h
  · rw [if_neg hk] at h ⊢
    exact hs.bare h

theorem lastOn_append (runs : List Run) (r : Run) (id : Nat) :
    lastOn (runs ++ [r]) id = if r.interpreter = id then some r else lastOn runs id := by
  rw [lastOn, List.reverse_append, List.reverse_singleton, List.singleton_append, List.find?_cons]
  by_cases h : r.interpreter = id
  · simp [h]
  · simp [h, lastOn]

/-! ## One run -/

namespace Interpreter

/-- The main chunk starts in a store with the tables that were prepared for it. -/
theorem tables_of_loaded {s t : Store} {text name : Bytes} {environment main : Value}
    (h : Basics.loaded s text name environment = .ok (t, main)) : t.tables = s.tables := by
  rw [Basics.loaded] at h
  dsimp only at h
  split at h
  · cases h
  · cases h
    rfl

theorem Begins.of_tables {s t : Store} {size : Nat} {v : Invocation} (h : Begins s size v)
    (ht : t.tables = s.tables) : Begins t size v := by
  have htable (a : Nat) : t.table a = s.table a := by rw [Store.table, ht, Store.table]
  have hkeeps : Store.Keeps size s t := ⟨Nat.le_of_eq (by rw [ht]), fun a _ _ => htable a⟩
  constructor <;> simp only [htable]
  · exact h.self
  · exact h.name
  · exact h.file
  · exact h.debug
  · exact h.host.mono hkeeps (Nat.le_refl _)
  · rw [ht]
    exact h.result
  · exact h.command

variable {i : Interpreter}

/-- The main chunk of a run begins with its own values and with what was in the scope. -/
theorem record_start (h : i.store.Founded) (created : Nat) (v : Invocation) (sink : Nat)
    (source : String) {s : Store} (hs : (i.record created v sink source).start = some s) :
    Begins s i.store.tables.size v ∧ (s.table scopeAddress).SameUnreserved i.scope := by
  obtain ⟨-, hbegins, hscope⟩ := prepared_spec h v sink
  dsimp only [record] at hs
  split at hs
  · rename_i t main hl
    cases hs
    have ht := tables_of_loaded hl
    refine ⟨hbegins.of_tables ht, ?_⟩
    rw [Store.table, ht]
    exact hscope
  · cases hs

/-- After a run, the interpreter has in its scope what the run leaves. -/
theorem record_leaves (h : i.store.Founded) (created : Nat) (v : Invocation) (sink : Nat)
    (source : String) :
    let after := ((i.run v sink source).1.afterRun v.keepGlobals).1
    after.store.Founded ∧ after.id = i.id ∧
      (i.record created v sink source).Leaves after.scope := by
  have hrun : (i.run v sink source).1.store.Founded :=
    (prepared_spec h v sink).1.runPrepared v sink source
  obtain ⟨hf, hid, hscope⟩ := afterRun_spec hrun v.keepGlobals
  refine ⟨hf, hid, ?_⟩
  rw [Run.Leaves]
  show if v.keepGlobals then _ else _
  split at hscope
  · rename_i hk
    rw [if_pos hk, hscope]
    exact .refl _
  · rename_i hk
    rw [if_neg hk]
    exact hscope.bare

end Interpreter

/-! ## Interpreters of a pool -/

namespace Pool

/-- The idle interpreters have numbers of their own, and each has in its scope what its last run has
left. All runs were on interpreters that the pool has made. -/
structure Remembers (p : Pool) (runs : List Run) : Prop where
  made : ∀ r ∈ runs, r.interpreter ≤ p.created
  ids : (p.idle.map Interpreter.id).Nodup
  founded : ∀ i ∈ p.idle, i.store.Founded
  idle : ∀ i ∈ p.idle, i.id ≤ p.created ∧
    ∃ last, lastOn runs i.id = some last ∧ last.Leaves i.scope

variable {p : Pool} {runs : List Run}

theorem Remembers.lastOn_eq_none (h : p.Remembers runs) {id : Nat} (hid : p.created < id) :
    lastOn runs id = none := by
  refine List.find?_eq_none.2 fun r hr he => ?_
  have := h.made r (List.mem_reverse.1 hr)
  rw [decide_eq_true_iff.1 he] at this
  omega

/-- The interpreter that is given out is new, or one that has in its scope what its last run has
left. The others stay as they were. -/
theorem Remembers.acquire (h : p.Remembers runs) (document : String) (refresh : Bool) :
    let (q, i) := p.acquire document refresh
    i.store.Founded ∧ p.created ≤ q.created ∧ i.id ≤ q.created ∧
      (q.idle.map Interpreter.id).Nodup ∧ (∀ j ∈ q.idle, j ∈ p.idle ∧ j.id ≠ i.id) ∧
      (p.created < i.id ∧ i.scope.Bare ∨
        i.id ≤ p.created ∧ ∃ last, lastOn runs i.id = some last ∧ last.Leaves i.scope) := by
  obtain ⟨before, i, rest, hidle, -, -, -, heq⟩ | ⟨-, heq⟩ := p.acquire_cases document refresh
  · have hi : i ∈ p.idle := hidle ▸ by simp
    have hnodup := h.ids
    rw [hidle, List.map_append, List.map_cons, List.nodup_middle, ← List.map_append,
      List.nodup_cons] at hnodup
    rw [heq]
    refine ⟨h.founded i hi, Nat.le_refl _, (h.idle i hi).1, hnodup.2, fun j hj => ⟨?_, ?_⟩,
      .inr (h.idle i hi)⟩
    · rw [hidle, List.mem_append, List.mem_cons]
      exact (List.mem_append.1 hj).imp_right .inr
    · exact fun he => hnodup.1 (he ▸ List.mem_map_of_mem hj)
  · obtain ⟨hfounded, hstripped⟩ :=
      Interpreter.new_spec (p.created + 1) document (p.layouts (p.created + 1))
    have hsub : (p.without document).idle.Sublist p.idle := List.filter_sublist
    rw [heq]
    refine ⟨hfounded, Nat.le_succ _, Nat.le_refl _, h.ids.sublist (hsub.map Interpreter.id),
      fun j hj => ⟨hsub.subset hj, ?_⟩, .inl ⟨Nat.lt_succ_self _, hstripped.bare⟩⟩
    have := (h.idle j (hsub.subset hj)).1
    show j.id ≠ p.created + 1
    omega

/-- A run continues what the run before it on its interpreter has left, and leaves what is
remembered. -/
theorem Remembers.runText (h : p.Remembers runs) (v : Invocation) (sink : Nat) (source : String) :
    (p.recordText v sink source).Continues runs ∧
      (p.runText v sink source).1.Remembers (runs ++ [p.recordText v sink source]) := by
  have ha := h.acquire v.handles.document v.refresh
  rw [Pool.runText, recordText]
  generalize p.acquire v.handles.document v.refresh = found at ha ⊢
  obtain ⟨q, i⟩ := found
  obtain ⟨hfounded, hcreated, hid, hnodup, hothers, hscope⟩ := ha
  obtain ⟨hafter, hsame, hleaves⟩ :=
    Interpreter.record_leaves hfounded p.created v sink (withoutMarks source)
  constructor
  · intro s hs
    obtain ⟨hbegins, hunreserved⟩ :=
      Interpreter.record_start hfounded p.created v sink (withoutMarks source) hs
    refine ⟨hbegins, fun hnew => ?_, fun hold => ?_⟩
    · have hlt : p.created < i.id := decide_eq_true_iff.1 hnew
      obtain ⟨-, hbare⟩ | ⟨hle, -⟩ := hscope
      · exact ⟨h.lastOn_eq_none hlt, hunreserved.bare hbare⟩
      · exact absurd hlt (Nat.not_lt_of_le hle)
    · obtain ⟨hlt, -⟩ | ⟨-, last, hlast, hscope⟩ := hscope
      · exact absurd (decide_eq_true hlt) hold
      · exact ⟨last, hlast, hscope.of_sameUnreserved hunreserved⟩
  · dsimp only
    generalize ((i.run v sink (withoutMarks source)).1.afterRun v.keepGlobals).1 = after at *
    generalize hrecord : i.record p.created v sink (withoutMarks source) = r at *
    have hinterpreter : r.interpreter = i.id := by rw [← hrecord]; rfl
    have hother {j : Interpreter} (hj : j ∈ q.idle) :
        lastOn (runs ++ [r]) j.id = lastOn runs j.id := by
      rw [lastOn_append, if_neg]
      rw [hinterpreter]
      exact (hothers j hj).2.symm
    exact {
      made := fun r' hr => by
        rcases List.mem_append.1 hr with hr | hr
        · exact Nat.le_trans (h.made r' hr) hcreated
        · rw [List.mem_singleton.1 hr, hinterpreter]
          exact hid
      ids := by
        rw [release, List.map_cons, List.nodup_cons, hsame]
        refine ⟨fun hm => ?_, hnodup⟩
        obtain ⟨j, hj, he⟩ := List.mem_map.1 hm
        exact (hothers j hj).2 he
      founded := fun j hj => by
        rcases List.mem_cons.1 hj with rfl | hj
        · exact hafter
        · exact h.founded j (hothers j hj).1
      idle := fun j hj => by
        rcases List.mem_cons.1 hj with rfl | hj
        · rw [hsame, lastOn_append, if_pos hinterpreter]
          exact ⟨hid, r, rfl, hleaves⟩
        · obtain ⟨hle, hlast⟩ := h.idle j (hothers j hj).1
          rw [hother hj]
          exact ⟨Nat.le_trans hle hcreated, hlast⟩ }

/-- **One call.** -/
theorem Remembers.perform (h : p.Remembers runs) (c : Call) :
    (∀ r ∈ p.runOf? c, r.Continues runs) ∧
      (p.perform c).Remembers (runs ++ (p.runOf? c).toList) := by
  cases hr : c.files.readText c.invocation.path with
  | error fault =>
    have hnone : p.runOf? c = none := by rw [runOf?, hr]
    have hsame : p.perform c = p := by rw [Pool.perform, Pool.run, hr]
    rw [hnone, hsame]
    rw [Option.toList_none, List.append_nil]
    exact ⟨fun r hm => absurd hm (Option.not_mem_none r), h⟩
  | ok source =>
    have hsome : p.runOf? c = some (p.recordText c.invocation c.sink source) := by rw [runOf?, hr]
    have hnext : p.perform c = (p.runText c.invocation c.sink source).1 := by
      rw [Pool.perform, Pool.run, hr]
    obtain ⟨hc, hremembers⟩ := h.runText c.invocation c.sink source
    rw [hsome, hnext, Option.toList_some]
    refine ⟨fun r hm => ?_, hremembers⟩
    rw [← Option.mem_some_iff.1 hm]
    exact hc

/-- What each call keeps, with something that its run has, holds after all calls, and each run has
it after the runs before it. -/
theorem runs_induction {I : Pool → List Run → Prop} {Q : Run → List Run → Prop}
    (step : ∀ {p : Pool} {runs : List Run}, I p runs → ∀ c : Call,
      (∀ r ∈ p.runOf? c, Q r runs) ∧ I (p.perform c) (runs ++ (p.runOf? c).toList))
    {p : Pool} {earlier : List Run} (h : I p earlier) (calls : List Call) :
    I (calls.foldl Pool.perform p) (earlier ++ p.runs calls) ∧
      ∀ {before rest : List Run} {r : Run}, p.runs calls = before ++ r :: rest →
        Q r (earlier ++ before) := by
  induction calls generalizing p earlier with
  | nil =>
    rw [Pool.runs, List.append_nil]
    exact ⟨h, fun hr => by simp at hr⟩
  | cons c calls ih =>
    obtain ⟨hc, hnext⟩ := step h c
    rw [List.foldl_cons, Pool.runs]
    obtain ⟨hafter, hrest⟩ := ih hnext
    rw [List.append_assoc] at hafter
    refine ⟨hafter, fun {before rest r} hr => ?_⟩
    cases hrun : p.runOf? c with
    | none =>
      rw [hrun] at hr hrest
      rw [Option.toList_none, List.append_nil] at hrest
      exact hrest hr
    | some first =>
      rw [hrun] at hr hrest
      cases before with
      | nil =>
        cases hr
        rw [List.append_nil]
        exact hc r hrun
      | cons first' before =>
        rw [Option.toList_some, List.singleton_append, List.cons_append, List.cons.injEq] at hr
        obtain ⟨rfl, hr⟩ := hr
        rw [List.append_cons]
        exact hrest hr

theorem remembers_nil (layouts : Nat → Layout) : Remembers { layouts } [] where
  made := by simp
  ids := by simp
  founded := by simp
  idle := by simp

end Pool

end ScriptHost.Lua

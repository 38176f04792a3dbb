import ScriptHost.Proofs.Lua.Isolation
import ScriptHost.Proofs.Lua.Waiting

/-!
# The end that a script asks for

The function that ends a script raises a failure of the host. It ends the run if nothing on the
machine catches what is raised: no function that goes on with the error of a call, no call of a
script that has values to close, and no thread that was resumed by anything but its wrapper
(`Pool.stops_iff`).
-/

namespace ScriptHost.Lua

/-! ## What catches -/

/-- Does an error stop at the frame? The function there goes on with it, or the script there first
closes the values that it has left open. -/
def Frame.catches (f : Frame) : Bool :=
  match f.waiting with
  | .script a => !a.guarded.isEmpty
  | .attempt g _ _ => !g.passesOn
  | _ => false

/-- Does an error stop at the function that has resumed a thread, or at a frame below it? -/
def Resumer.catches (r : Resumer) : Bool := !r.f.passesOn || r.frames.any Frame.catches

/-- An error is on its way, and nothing of the script runs. -/
def Control.throws : Control → Bool
  | .raise _ _ | .unwind _ | .native _ (.fail _ _) => true
  | _ => false

namespace Machine

variable {m m' : Machine} {s s' : Store} {fs : List Frame} {rs : List Resumer} {v : Value} {a : Nat}

/-- Does anything catch what is raised in the running thread? -/
def catches (m : Machine) : Bool := m.frames.any Frame.catches || m.resumers.any Resumer.catches

/-- A library function begins with these arguments. -/
def Runs (m : Machine) (f : Builtin) (args : Args) : Prop :=
  m.control = .native f (Library.run f m.store args)

theorem run_add {n : Nat} (h : m.after n = some m') (k : Nat) : run (n + k) m = run k m' := by
  induction n generalizing m with
  | zero =>
    cases h
    rw [Nat.zero_add]
  | succ n ih =>
    rw [Nat.succ_add, run]
    rw [after] at h
    cases hstep : m.step with
    | inl m₁ =>
      rw [hstep] at h
      exact ih h
    | inr ended =>
      rw [hstep] at h
      cases h

/-! ## Falling -/

/-- The run ends with the error within so many steps, and until then only throws it. -/
inductive Falls (s : Store) (v : Value) : Nat → Machine → Prop where
  | ended {n : Nat} {m : Machine} (hc : m.control.throws = true)
      (h : m.step = .inr (.failed s v)) : Falls s v (n + 1) m
  | step {n : Nat} {m m' : Machine} (hc : m.control.throws = true) (h : m.step = .inl m')
      (ht : Falls s v n m') : Falls s v (n + 1) m

namespace Falls

theorem run {n : Nat} (h : Falls s v n m) (k : Nat) : Machine.run (n + k) m = .failed s v := by
  induction h with
  | ended _ h => rw [Nat.succ_add, Machine.run, h]
  | step _ h _ ih =>
    rw [Nat.succ_add, Machine.run, h]
    exact ih

theorem throws {n k : Nat} (h : Falls s v n m) (hm : m.after k = some m') :
    m'.control.throws = true := by
  induction h generalizing k with
  | ended hc h =>
    cases k with
    | zero =>
      cases hm
      exact hc
    | succ k =>
      rw [after, h] at hm
      cases hm
  | step hc h _ ih =>
    cases k with
    | zero =>
      cases hm
      exact hc
    | succ k =>
      rw [after, h] at hm
      exact ih hm

theorem mono {n k : Nat} (h : Falls s v n m) (hk : n ≤ k) : Falls s v k m := by
  induction h generalizing k with
  | ended hc h =>
    obtain ⟨k, rfl⟩ := Nat.exists_eq_add_one.2 (Nat.lt_of_lt_of_le (Nat.succ_pos _) hk)
    exact .ended hc h
  | step hc h _ ih =>
    obtain ⟨k, rfl⟩ := Nat.exists_eq_add_one.2 (Nat.lt_of_lt_of_le (Nat.succ_pos _) hk)
    exact .step hc h (ih (Nat.le_of_succ_le_succ hk))

end Falls

/-! ### Frames that do not catch -/

theorem handler?_eq_none (hf : Frames.Handle fs) (hc : fs.any Frame.catches = false) :
    handler? fs = none := by
  induction fs with
  | nil => rfl
  | cons f rest ih =>
    obtain ⟨w, d, k⟩ := f
    obtain ⟨hw, hrest⟩ := List.forall_mem_cons.1 hf
    rw [List.any_cons, Bool.or_eq_false_iff] at hc
    cases hw with
    | attempt hh _ _ => exact hh (by simpa [Frame.catches] using hc.1)
    | _ => exact ih hrest hc.2

/-- A script's end has no calls noted with it. -/
theorem traced_exit {status : Int} (h : m.store.failures.getD a default = .exit status)
    (f : Option Builtin) : m.traced f (.failure a) = m.store := by
  simp only [traced, Store.noteOrigin, h]

/-- A frame that does not catch it is taken away by a failure, or its function fails with it. -/
theorem unwindFrom_cases {f : Frame} (hw : f.waiting.Handles) (hc : f.catches = false) (s : Store)
    (fs : List Frame) (rs : List Resumer) (a : Nat) :
    unwindFrom ⟨s, f :: fs, rs, .advance⟩ f fs (.failure a) = ⟨s, fs, rs, .unwind (.failure a)⟩ ∨
      ∃ g, unwindFrom ⟨s, f :: fs, rs, .advance⟩ f fs (.failure a) =
        ⟨s, fs, rs, .native g (.fail s (.value (.failure a)))⟩ := by
  obtain ⟨w, d, k⟩ := f
  cases hw with
  | script b =>
    have hopen : b.guarded = [] := by simpa [Frame.catches] using hc
    refine .inl ?_
    simp only [unwindFrom, hopen]
  | native hn => exact .inl rfl
  | handling => exact .inl rfl
  | @attempt g handler next hh ha hn =>
    have hpasses : g.passesOn = true := by simpa [Frame.catches] using hc
    refine .inr ⟨g, ?_⟩
    rw [← ha.eq_fail hpasses s a]
    rfl

/-- The function that has resumed a thread fails with the end that the thread dies of, if it passes
it on. -/
theorem exists_backTo {r : Resumer} (hr : r.Handles) (hpasses : r.f.passesOn = true) (s : Store)
    (rs : List Resumer) (thread : Thread) (a : Nat) :
    ∃ t, t.written = s.written ∧ t.failures = s.failures ∧
      backTo s r rs thread (.error (.failure a)) =
        ⟨t, r.frames, rs, .native r.f (.fail t (.value (.failure a)))⟩ := by
  refine ⟨(backTo s r rs thread (.error (.failure a))).store, rfl, rfl, ?_⟩
  rw [← hr.answers.eq_fail hpasses]
  rfl

/-! ### Where nothing catches -/

/-- The end that a function fails with is unwound if no handler sees it. -/
theorem Falls.fail {status : Int} (hexit : s.failures.getD a default = .exit status)
    (hf : Frames.Handle fs) (hc : fs.any Frame.catches = false) {n : Nat}
    (h : Falls s' (.failure a) n ⟨s, fs, rs, .unwind (.failure a)⟩) (f : Builtin) (t : Store) :
    Falls s' (.failure a) (n + 2) ⟨t, fs, rs, .native f (.fail s (.value (.failure a)))⟩ := by
  have hraise : raise ⟨s, fs, rs, .advance⟩ (some f) (.failure a) =
      ⟨s, fs, rs, .unwind (.failure a)⟩ := by
    simp only [raise, handler?_eq_none hf hc, traced_exit (m := ⟨s, fs, rs, .advance⟩) hexit]
  refine .step rfl rfl (.step rfl ?_ h)
  exact congrArg Sum.inl hraise

/-- The end of a script is unwound past frames that do not catch it. -/
theorem Falls.frames {status : Int} (hexit : s.failures.getD a default = .exit status)
    (hf : Frames.Handle fs) (hc : fs.any Frame.catches = false) {n : Nat}
    (h : Falls s' (.failure a) n ⟨s, [], rs, .unwind (.failure a)⟩) :
    Falls s' (.failure a) (n + 3 * fs.length) ⟨s, fs, rs, .unwind (.failure a)⟩ := by
  induction fs with
  | nil => exact h
  | cons f rest ih =>
    obtain ⟨hw, hrest⟩ := List.forall_mem_cons.1 hf
    rw [List.any_cons, Bool.or_eq_false_iff] at hc
    have hbelow := ih hrest hc.2
    obtain hstep | ⟨g, hstep⟩ := unwindFrom_cases hw hc.1 s rest rs a
    · exact .step rfl (congrArg Sum.inl hstep) (hbelow.mono (Nat.le_add_right _ 2))
    · exact .step rfl (congrArg Sum.inl hstep) (hbelow.fail hexit hrest hc.2 g s)

/-- How much there is to unwind. -/
def height (fs : List Frame) (rs : List Resumer) : Nat :=
  fs.length + (rs.map fun r => r.frames.length + 1).sum

/-- Where nothing catches it, the end of a script unwinds all that there is, and nothing is
written. -/
theorem falls_unwind {status : Int} (hexit : s.failures.getD a default = .exit status)
    (hf : Frames.Handle fs) (hr : ∀ r ∈ rs, r.Handles) (hc : fs.any Frame.catches = false)
    (hrc : rs.any Resumer.catches = false) :
    ∃ s', s'.written = s.written ∧ s'.failures = s.failures ∧
      Falls s' (.failure a) (3 * height fs rs + 1) ⟨s, fs, rs, .unwind (.failure a)⟩ := by
  induction rs generalizing s fs with
  | nil =>
    have hended : Falls s (.failure a) 1 ⟨s, [], [], .unwind (.failure a)⟩ := .ended rfl rfl
    exact ⟨s, rfl, rfl, (hended.frames hexit hf hc).mono (by simp [height]; omega)⟩
  | cons r rest ih =>
    obtain ⟨hrh, hr⟩ := List.forall_mem_cons.1 hr
    rw [List.any_cons, Bool.or_eq_false_iff] at hrc
    obtain ⟨hpasses, hrf⟩ := Bool.or_eq_false_iff.1 hrc.1
    obtain ⟨t, hwritten, hfailures, hback⟩ :=
      exists_backTo hrh (by simpa using hpasses) s rest (.dead (some (.failure a))) a
    obtain ⟨s', hwritten', hfailures', ht⟩ :=
      ih (hfailures ▸ hexit) hrh.frames hr hrf hrc.2
    have hstep : step ⟨s, [], r :: rest, .unwind (.failure a)⟩ =
        .inl ⟨t, r.frames, rest, .native r.f (.fail t (.value (.failure a)))⟩ :=
      congrArg Sum.inl hback
    have hthread := Falls.step rfl hstep (ht.fail (hfailures ▸ hexit) hrh.frames hrf r.f t)
    refine ⟨s', hwritten'.trans hwritten, hfailures'.trans hfailures, ?_⟩
    exact (hthread.frames hexit hf hc).mono (by simp [height]; omega)

/-! ### Where something catches -/

/-- The run comes to do something else than to throw an error. -/
def GoesOn (m : Machine) : Prop := ∃ n m', m.after n = some m' ∧ m'.control.throws = false

namespace GoesOn

theorem now (h : m.control.throws = false) : m.GoesOn := ⟨0, m, rfl, h⟩

theorem step (h : m.step = .inl m') (hm : m'.GoesOn) : m.GoesOn := by
  obtain ⟨n, k, hn, hk⟩ := hm
  refine ⟨n + 1, k, ?_, hk⟩
  rw [after, h]
  exact hn

/-- A function goes on that does not fail. -/
theorem native {f : Builtin} {n : Native} (h : ¬ n.Fails) : GoesOn ⟨s, fs, rs, .native f n⟩ := by
  refine now ?_
  cases n with
  | fail => exact absurd trivial h
  | _ => rfl

/-- A frame that catches an error closes a value or goes on with the error. -/
theorem caught {f : Frame} (hw : f.waiting.Handles) (hc : f.catches = true) (v : Value) :
    GoesOn ⟨s, f :: fs, rs, .unwind v⟩ := by
  obtain ⟨w, d, k⟩ := f
  cases hw with
  | script b =>
    obtain ⟨closure, prototype, pc, slots, stack, many, arguments, guarded, raising, isTail⟩ := b
    cases guarded with
    | nil => cases hc
    | cons slot guarded => exact .step rfl (.now rfl)
  | native hn => cases hc
  | handling => cases hc
  | attempt hh ha hn =>
    exact .step rfl (.native (ha.not_fails (by simpa [Frame.catches] using hc) s v))

/-- An error is unwound down to the function that has a handler for it, unless something else
catches it first. -/
theorem unwind_handler (hf : Frames.Handle fs) {h : Value} (hh : handler? fs = some h) (v : Value) :
    GoesOn ⟨s, fs, rs, .unwind v⟩ := by
  induction fs with
  | nil => cases hh
  | cons f rest ih =>
    obtain ⟨hw, hrest⟩ := List.forall_mem_cons.1 hf
    cases hc : f.catches with
    | true => exact caught hw hc v
    | false =>
      obtain ⟨w, d, k⟩ := f
      cases hw with
      | script b =>
        have hopen : b.guarded = [] := by simpa [Frame.catches] using hc
        have hstep : unwindFrom ⟨s, ⟨.script b, d, k⟩ :: rest, rs, .advance⟩ ⟨.script b, d, k⟩ rest
            v = ⟨s, rest, rs, .unwind v⟩ := by
          simp only [unwindFrom, hopen]
        exact .step (congrArg Sum.inl hstep) (ih hrest hh)
      | native hn => exact .step rfl (ih hrest hh)
      | handling => exact .step rfl (ih hrest hh)
      | attempt hg _ _ =>
        rw [handler?, hg (by simpa [Frame.catches] using hc)] at hh
        cases hh

/-- An error that is raised is unwound, or a handler is called, or it is unwound down to the
function that has the handler. -/
theorem raise (hf : Frames.Handle fs) {v : Value} (h : ∀ s, GoesOn ⟨s, fs, rs, .unwind v⟩)
    (f : Option Builtin) : GoesOn ⟨s, fs, rs, .raise f v⟩ := by
  refine .step rfl ?_
  unfold Machine.raise
  split
  · exact h _
  · rename_i handler hh
    split
    · exact unwind_handler hf hh _
    · exact .now rfl

/-- A failure of the host that a function fails with is raised. -/
theorem fail (hf : Frames.Handle fs) (h : ∀ s, GoesOn ⟨s, fs, rs, .unwind (.failure a)⟩)
    (f : Builtin) (t : Store) :
    GoesOn ⟨t, fs, rs, .native f (.fail s (.value (.failure a)))⟩ := .step rfl (raise hf h (some f))

/-- A failure of the host is thrown no further than to the first frame that catches it. -/
theorem frames (hf : Frames.Handle fs)
    (h : fs.any Frame.catches = true ∨ ∀ s, GoesOn ⟨s, [], rs, .unwind (.failure a)⟩) (s : Store) :
    GoesOn ⟨s, fs, rs, .unwind (.failure a)⟩ := by
  induction fs generalizing s with
  | nil => exact h.resolve_left Bool.false_ne_true s
  | cons f rest ih =>
    obtain ⟨hw, hrest⟩ := List.forall_mem_cons.1 hf
    cases hc : f.catches with
    | true => exact caught hw hc _
    | false =>
      rw [List.any_cons, hc, Bool.false_or] at h
      obtain hstep | ⟨g, hstep⟩ := unwindFrom_cases hw hc s rest rs a
      · exact .step (congrArg Sum.inl hstep) (ih hrest h s)
      · exact .step (congrArg Sum.inl hstep) (fail hrest (ih hrest h) g s)

end GoesOn

/-- Where something catches it, a failure of the host is thrown no further than to there. -/
theorem goesOn_unwind (hf : Frames.Handle fs) (hr : ∀ r ∈ rs, r.Handles)
    (hc : fs.any Frame.catches = true ∨ rs.any Resumer.catches = true) (s : Store) :
    GoesOn ⟨s, fs, rs, .unwind (.failure a)⟩ := by
  induction rs generalizing s fs with
  | nil => exact .frames hf (hc.imp_right fun h => absurd h Bool.false_ne_true) s
  | cons r rest ih =>
    refine .frames hf (hc.imp_right fun hrc s => ?_) s
    obtain ⟨hrh, hr⟩ := List.forall_mem_cons.1 hr
    cases hpasses : r.f.passesOn with
    | false => exact .step rfl (.native (hrh.answers.not_fails hpasses _ _))
    | true =>
      obtain ⟨t, -, -, hback⟩ :=
        exists_backTo hrh hpasses s rest (.dead (some (.failure a))) a
      have hbelow : r.frames.any Frame.catches = true ∨ rest.any Resumer.catches = true := by
        simpa [Resumer.catches, hpasses] using hrc
      exact .step (congrArg Sum.inl hback) (.fail hrh.frames (ih hrh.frames hr hbelow) r.f t)

/-! ### The end of a script -/

theorem falls_of_runs (hm : m.Handles) {args : Args} (h : m.Runs (.system .exit) args)
    (hc : m.catches = false) :
    ∃ s' a, s'.written = m.store.written ∧
      s'.failures.getD a default = .exit (System.exitStatus args.head?) ∧
      Falls s' (.failure a) (3 * height m.frames m.resumers + 3) m := by
  obtain ⟨s, fs, rs, c⟩ := m
  obtain rfl : c = .native (.system .exit) (System.exit s args) := h
  obtain ⟨hfc, hrc⟩ := Bool.or_eq_false_iff.1 hc
  have hexit : (s.newFailure (.exit (System.exitStatus args.head?))).1.failures.getD
      s.failures.size default = .exit (System.exitStatus args.head?) := by
    simp [Store.newFailure]
  obtain ⟨s', hwritten, hfailures, ht⟩ := falls_unwind hexit hm.frames hm.resumers hfc hrc
  exact ⟨s', _, hwritten, hfailures ▸ hexit, ht.fail hexit hm.frames hfc (.system .exit) s⟩

theorem goesOn_of_runs (hm : m.Handles) {args : Args} (h : m.Runs (.system .exit) args)
    (hc : m.catches = true) : m.GoesOn := by
  obtain ⟨s, fs, rs, c⟩ := m
  obtain rfl : c = .native (.system .exit) (System.exit s args) := h
  have hcatch := Bool.or_eq_true_iff.1 hc
  exact .fail hm.frames (goesOn_unwind hm.frames hm.resumers hcatch) (.system .exit) s

/-! ### Calls for the end -/

/-- Is the function that ends a script called next, with room for the call? -/
def callsExit (m : Machine) : Bool :=
  match m.control with
  | .call (.builtin (.system .exit)) _ => nesting m.frames != maxNesting
  | _ => false

theorem after_succ {n : Nat} {k : Machine} (h : m.after n = some m') (hstep : m'.step = .inl k) :
    m.after (n + 1) = some k := by
  induction n generalizing m with
  | zero =>
    cases h
    rw [after, hstep]
    rfl
  | succ n ih =>
    rw [after] at h ⊢
    split at h
    · exact ih h
    · cases h

theorem step_of_callsExit (h : m.callsExit = true) :
    ∃ args, m.step = .inl { m with
      control := .native (.system .exit) (Library.run (.system .exit) m.store args) } := by
  obtain ⟨s, fs, rs, c⟩ := m
  unfold callsExit at h
  split at h
  · rename_i args hcontrol
    obtain rfl : c = .call (.builtin (.system .exit)) args := hcontrol
    have hroom : nesting fs ≠ maxNesting := by simpa using h
    have hcall : call ⟨s, fs, rs, .advance⟩ (.builtin (.system .exit)) args false =
        ⟨s, fs, rs, .native (.system .exit) (System.exit s args)⟩ := if_neg hroom
    exact ⟨args, congrArg Sum.inl hcall⟩
  · cases h

end Machine

/-! ## On an interpreter -/

namespace Interpreter

variable {i : Interpreter} {v : Invocation} {sink : Nat} {source : String} {m : Machine}

/-- The machine on which a script begins, if its text can be loaded. -/
def start? (i : Interpreter) (v : Invocation) (sink : Nat) (source : String) : Option Machine :=
  match Basics.loaded (prepared i.store v sink) (Bytes.ofString source) (chunkName v.path)
    (.table scopeAddress) with
  | .error _ => none
  | .ok (s, main) => some { store := s, frames := [], control := .call main [] }

theorem handles_of_start? (h : i.start? v sink source = some m) : m.Handles := by
  unfold start? at h
  split at h
  · cases h
  · cases h
    exact ⟨List.forall_mem_nil _, List.forall_mem_nil _, trivial⟩

theorem run_of_start? (h : i.start? v sink source = some m) :
    (i.run v sink source).2 = (finished v sink (m.run Machine.fuel)).2 := by
  unfold start? at h
  split at h
  · cases h
  · rename_i s main hloaded
    cases h
    show (runPrepared (prepared i.store v sink) v sink source).2 = _
    rw [runPrepared, hloaded]
    rfl

/-- The end that a failure of the host asks for. -/
theorem finished_exit {s : Store} {a : Nat} {status : Int}
    (h : s.failures.getD a default = .exit status) :
    (finished v sink (.failed s (.failure a))).2 = (exited s v status).2 := by
  simp only [finished, exitStatus?, h]

theorem seen_exited (s : Store) (status : Int) (sink : Nat) :
    (exited s v status).2.seen sink = (.exited, {}, (takeWritten s).2.entriesOf sink) := by
  simp only [exited, Execution.seen, Effects.entriesOf_append]
  exact congrArg (fun es => (Outcome.exited, ({} : Report), es)) (List.append_nil _)

theorem takeWritten_eq {s t : Store} (h : t.written = s.written) :
    (takeWritten t).2 = (takeWritten s).2 := by rw [takeWritten, takeWritten, h]

end Interpreter

/-! ## On a pool -/

namespace Pool

/-- The machine on which the script of a call begins, if it can be read and loaded. -/
def start? (p : Pool) (c : Call) : Option Machine :=
  match c.files.readText c.invocation.path with
  | .error _ => none
  | .ok source =>
    (p.acquire c.invocation.handles.document c.invocation.refresh).2.start? c.invocation c.sink
      (withoutMarks source)

/-- The run of a call stops at a machine that it has come to: from there on it throws an error and
does nothing else, the script has ended by itself, nothing is reported, and the sinks have what was
written before. -/
structure Stops (p : Pool) (c : Call) (m : Machine) : Prop where
  throws : ∀ n m', m.after n = some m' → m'.control.throws = true
  outcome : (p.run c.files c.invocation c.sink).2.outcome = .exited
  report : (p.run c.files c.invocation c.sink).2.report = {}
  entries : ∀ sink, (p.run c.files c.invocation c.sink).2.effects.entriesOf sink =
    (Interpreter.takeWritten m.store).2.entriesOf sink

/-- **The end of a script.** Wherever a script calls for its end, in the midst of whatever calls and
threads, and as long as there are steps left to unwind them: its run stops there if and only if
nothing on the machine catches what is raised. -/
theorem stops_iff (p : Pool) (c : Call) {start m : Machine} {n : Nat} {args : Args}
    (hstart : p.start? c = some start) (hm : start.after n = some m)
    (hrun : m.Runs (.system .exit) args)
    (hsteps : n + (3 * Machine.height m.frames m.resumers + 3) ≤ Machine.fuel) :
    p.Stops c m ↔ m.catches = false := by
  unfold start? at hstart
  split at hstart
  · cases hstart
  rename_i source hread
  have hhandles : m.Handles := (Interpreter.handles_of_start? hstart).after hm
  constructor
  · intro hstops
    refine Bool.eq_false_iff.2 fun hc => ?_
    obtain ⟨k, m', hk, hthrows⟩ := Machine.goesOn_of_runs hhandles hrun hc
    exact Bool.eq_false_iff.1 hthrows (hstops.throws k m' hk)
  · intro hc
    obtain ⟨s, a, hwritten, hexit, hfalls⟩ := Machine.falls_of_runs hhandles hrun hc
    have hended : start.run Machine.fuel = .failed s (.failure a) := by
      obtain ⟨k, hk⟩ := Nat.exists_eq_add_of_le hsteps
      rw [hk, Nat.add_assoc, Machine.run_add hm]
      exact hfalls.run k
    have hseen (sink : Nat) : (p.run c.files c.invocation c.sink).2.seen sink =
        (.exited, {}, (Interpreter.takeWritten m.store).2.entriesOf sink) := by
      rw [Pool.run, hread]
      dsimp only
      rw [seen_runText, Interpreter.run_of_start? hstart, hended, Interpreter.finished_exit hexit,
        Interpreter.seen_exited, Interpreter.takeWritten_eq hwritten]
    exact ⟨fun _ _ => hfalls.throws, congrArg (·.1) (hseen c.sink), congrArg (·.2.1) (hseen c.sink),
      fun sink => congrArg (·.2.2) (hseen sink)⟩

/-! ### Scripts that call for their end -/

theorem start?_script (p : Pool) (sink : Nat) (text : String) :
    p.start? (script sink text) =
      (p.acquire plainInvocation.handles.document plainInvocation.refresh).2.start? plainInvocation
        sink (withoutMarks text) := by
  rw [start?]
  show (match Files.readText _ plainInvocation.path with
    | .error _ => none
    | .ok source => _) = _
  rw [readText_script]
  rfl

/-- A script that comes to a call for its end, with what is waiting there. -/
theorem exists_runs {text : String} {n : Nat} {P : List Frame → List Resumer → Bool}
    (h : ((start? {} (script 0 text)).bind (Machine.after n)).any
      (fun m => m.callsExit && P m.frames m.resumers) = true) :
    ∃ start m args, start? {} (script 0 text) = some start ∧ start.after (n + 1) = some m ∧
      m.Runs (.system .exit) args ∧ P m.frames m.resumers = true := by
  obtain ⟨before, hbefore, hcall⟩ := (Option.any_eq_true _ _).1 h
  obtain ⟨start, hstart, hafter⟩ := Option.bind_eq_some_iff.1 hbefore
  obtain ⟨hcall, hP⟩ := (Bool.and_eq_true _ _).mp hcall
  obtain ⟨args, hstep⟩ := Machine.step_of_callsExit hcall
  exact ⟨start, _, args, hstart, Machine.after_succ hafter hstep, rfl, hP⟩

/-- A thread prints a table, and the method that makes the text of the table ends the script. -/
def endedByMethod : String :=
  "print(\"a\")\n" ++
  "local t = setmetatable({}, {__tostring = function() os.exit(3) end})\n" ++
  "coroutine.wrap(function() print(t) end)()\n" ++
  "print(\"b\")"

/-- The run of that script stops where the method calls for its end. -/
theorem stops_endedByMethod :
    ∃ start m args, start? {} (script 0 endedByMethod) = some start ∧
      start.after 58 = some m ∧ m.Runs (.system .exit) args ∧ m.catches = false ∧
      Stops {} (script 0 endedByMethod) m := by
  have hfree : ∃ start m args, start? {} (script 0 endedByMethod) = some start ∧
      start.after 58 = some m ∧ m.Runs (.system .exit) args ∧
      (!m.catches && decide (Machine.height m.frames m.resumers ≤ 6)) = true :=
    exists_runs (P := fun fs rs => !(fs.any Frame.catches || rs.any Resumer.catches) &&
      decide (Machine.height fs rs ≤ 6)) (by rw [start?_script]; decide +kernel)
  obtain ⟨start, m, args, hstart, hm, hrun, hfree⟩ := hfree
  obtain ⟨hcatches, hheight⟩ := (Bool.and_eq_true _ _).mp hfree
  have hc : m.catches = false := by simpa using hcatches
  have hsteps : 58 + (3 * Machine.height m.frames m.resumers + 3) ≤ Machine.fuel := by
    have hheight := of_decide_eq_true hheight
    rw [Machine.fuel]
    omega
  exact ⟨start, m, args, hstart, hm, hrun, hc, (stops_iff _ _ hstart hm hrun hsteps).2 hc⟩

/-- A protected call ends the script, and a line is printed after it. -/
def endedProtected : String := "pcall(os.exit, 3)\nprint(\"b\")"

/-- That script goes on: it prints the line, and its run is one that has succeeded. -/
theorem not_stops_endedProtected :
    ∃ start m args, start? {} (script 0 endedProtected) = some start ∧
      start.after 14 = some m ∧ m.Runs (.system .exit) args ∧
      ¬ Stops {} (script 0 endedProtected) m ∧
      (Pool.runText {} plainInvocation 0 endedProtected).2.outcome = .succeeded ∧
      (Pool.runText {} plainInvocation 0 endedProtected).2.effects.entriesOf 0 =
        [⟨.out, "b\n"⟩] := by
  have hruns : ∃ start m args, start? {} (script 0 endedProtected) = some start ∧
      start.after 14 = some m ∧ m.Runs (.system .exit) args ∧ true = true :=
    exists_runs (P := fun _ _ => true) (by rw [start?_script]; decide +kernel)
  have hseen : ((Pool.runText {} plainInvocation 0 endedProtected).2.outcome,
      (Pool.runText {} plainInvocation 0 endedProtected).2.effects.entriesOf 0) =
        (.succeeded, [⟨.out, "b\n"⟩]) := by decide +kernel
  obtain ⟨houtcome, hentries⟩ := Prod.mk.inj hseen
  obtain ⟨start, m, args, hstart, hm, hrun, -⟩ := hruns
  refine ⟨start, m, args, hstart, hm, hrun, fun hstops => ?_, houtcome, hentries⟩
  have hexited := hstops.outcome
  rw [run_script, houtcome] at hexited
  cases hexited

end Pool

end ScriptHost.Lua

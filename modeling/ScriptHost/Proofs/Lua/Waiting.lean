import ScriptHost.Proofs.Lua.Handling

/-!
# What waits on a machine

The functions of the libraries that wait on the frames of a machine, and those that have resumed
its threads, handle errors in their own ways. A script begins with nothing that waits, and a step
of the machine keeps this up (`Machine.Handles.step`), so that it holds of every machine that a
run comes to (`Machine.Handles.after`).
-/

namespace ScriptHost.Lua

/-- What waits goes on as a library function does that handles errors in its own way. -/
inductive Waiting.Handles : Waiting → Prop where
  | script (a : Activation) : Waiting.Handles (.script a)
  | native {f : Builtin} {next : Store → List Value → Native}
      (hn : ∀ s vs, (next s vs).Handles f) : Waiting.Handles (.native f next)
  | attempt {f : Builtin} {handler : Option Value}
      {next : Store → Except Value (List Value) → Native} (hh : f.passesOn → handler = none)
      (ha : f.Answers next) (hn : ∀ s r, (next s r).Handles f) :
      Waiting.Handles (.attempt f handler next)
  | handling : Waiting.Handles .handling

abbrev Frames.Handle (frames : List Frame) : Prop := ∀ f ∈ frames, f.waiting.Handles

structure Resumer.Handles (r : Resumer) : Prop where
  frames : Frames.Handle r.frames
  answers : r.f.Answers r.next
  next : ∀ s result, (r.next s result).Handles r.f

def Control.Handles : Control → Prop
  | .native f n => n.Handles f
  | _ => True

structure Machine.Handles (m : Machine) : Prop where
  frames : Frames.Handle m.frames
  resumers : ∀ r ∈ m.resumers, r.Handles
  control : m.control.Handles

namespace Machine

variable {m m' : Machine}

/-- The machine after so many steps, if it does not end before. -/
def after : Nat → Machine → Option Machine
  | 0, m => some m
  | n + 1, m =>
    match m.step with
    | .inl m => after n m
    | .inr _ => none

namespace Handles

variable {s : Store} {fs : List Frame}

theorem fault (hm : m.Handles) (s : Store) (hf : Frames.Handle fs) (f : Option Builtin)
    (e : Fault) : (m.fault s fs f e).Handles := ⟨hf, hm.resumers, trivial⟩

theorem pushed (hf : Frames.Handle fs) {w : Waiting} (hw : w.Handles) (nested : Bool) :
    Frames.Handle (Machine.pushed fs w nested) := List.forall_mem_cons.2 ⟨hw, hf⟩

theorem enter (hm : m.Handles) (address : Nat) (args : List Value) (isTail : Bool) :
    (m.enter address args isTail).Handles := by
  unfold Machine.enter
  dsimp only
  split
  · exact hm.fault _ hm.frames none _
  · split
    · exact hm.fault _ hm.frames none _
    · exact ⟨pushed hm.frames (.script _) _, hm.resumers, trivial⟩

theorem callOther (hm : m.Handles) (f : Value) (args : List Value) :
    (m.callOther f args).Handles := by
  unfold Machine.callOther
  split
  · exact hm.fault _ hm.frames none _
  · exact ⟨hm.frames, hm.resumers, trivial⟩

theorem call (hm : m.Handles) (f : Value) (args : List Value) (isTail : Bool) :
    (m.call f args isTail).Handles := by
  unfold Machine.call
  split
  · exact hm.enter _ args isTail
  · split
    · exact hm.fault _ hm.frames none _
    · exact ⟨hm.frames, hm.resumers, Library.run_handles _ m.store args⟩
  · exact hm.callOther _ args

/-! ### Threads -/

theorem framesOf (calls : List Activation) (nesting : Nat) :
    Frames.Handle (Machine.framesOf calls nesting) := by
  have hfold (calls : List Activation) : ∀ fs : List Frame, Frames.Handle fs →
      Frames.Handle
        (calls.foldl (fun frames a => ⟨.script a, depth frames + 1, nesting⟩ :: frames) fs) := by
    induction calls with
    | nil => exact fun _ h => h
    | cons a rest ih => exact fun _ h => ih _ (List.forall_mem_cons.2 ⟨.script a, h⟩)
  exact hfold calls.reverse [] (List.forall_mem_nil _)

theorem started (hm : m.Handles) (s : Store) {f : Builtin}
    {next : Store → Except Value (List Value) → Native} (ha : f.Answers next)
    (hn : ∀ s r, (next s r).Handles f) (thread : Nat) (hf : Frames.Handle fs) {c : Control}
    (hc : c.Handles) : (m.started s f next thread fs c).Handles :=
  ⟨hf, List.forall_mem_cons.2 ⟨⟨hm.frames, ha, hn⟩, hm.resumers⟩, hc⟩

theorem backTo (s : Store) {r : Resumer} (hr : r.Handles) {rs : List Resumer}
    (hrs : ∀ r ∈ rs, r.Handles) (thread : Thread) (result : Except Value (List Value)) :
    (Machine.backTo s r rs thread result).Handles := ⟨hr.frames, hrs, hr.next _ result⟩

theorem yield (hm : m.Handles) (s : Store) (values : List Value) :
    (m.yield s values).Handles := by
  unfold Machine.yield
  split
  · exact hm.fault _ hm.frames none _
  · rename_i r rest hres
    obtain ⟨hr, hrest⟩ := List.forall_mem_cons.1 (hres ▸ hm.resumers)
    split
    · exact hm.fault _ hm.frames none _
    · exact backTo s hr hrest _ _

theorem native (hm : m.Handles) {f : Builtin} {n : Native} (hn : n.Handles f) :
    (m.native f n).Handles := by
  cases hn with
  | done s vs => exact ⟨hm.frames, hm.resumers, trivial⟩
  | fail s e => exact hm.fault s hm.frames _ e
  | call hn => exact ⟨pushed hm.frames (.native hn) true, hm.resumers, trivial⟩
  | attempt hh ha hn => exact ⟨pushed hm.frames (.attempt hh ha hn) true, hm.resumers, trivial⟩
  | resume ha hn =>
    unfold Machine.native
    dsimp only
    split
    · exact hm.started _ ha hn _ (framesOf _ _) trivial
    · exact hm.started _ ha hn _ (List.forall_mem_nil _) trivial
    · exact ⟨hm.frames, hm.resumers, trivial⟩
  | yield s vs => exact hm.yield s vs
  | canYield hn => exact ⟨hm.frames, hm.resumers, hn _⟩

/-! ### Steps -/

theorem advance (s : Store) (depth nesting : Nat) (a : Activation) (hf : Frames.Handle fs)
    {rs : List Resumer} (hrs : ∀ r ∈ rs, r.Handles) :
    (Machine.advance s depth nesting a fs rs).Handles := by
  have hback (a : Activation) : Frames.Handle (⟨.script a, depth, nesting⟩ :: fs) :=
    List.forall_mem_cons.2 ⟨.script a, hf⟩
  unfold Machine.advance
  split
  · exact ⟨hf, hrs, trivial⟩
  · generalize effect s _ _ = e
    cases e with
    | next s a => exact ⟨hback a, hrs, trivial⟩
    | call s a g args => exact ⟨hback a, hrs, trivial⟩
    | replace s g args => exact ⟨hf, hrs, trivial⟩
    | fail s a e => exact ⟨hback a, hrs, trivial⟩
    | leave s values => exact ⟨hf, hrs, trivial⟩

theorem deliverScript (hm : m.Handles) (f : Frame) (a : Activation) (hf : Frames.Handle fs)
    (values : List Value) : (m.deliverScript f a fs values).Handles := by
  unfold Machine.deliverScript
  split
  · exact ⟨hm.frames, hm.resumers, trivial⟩
  · split
    · split
      · exact ⟨hf, hm.resumers, trivial⟩
      · exact ⟨List.forall_mem_cons.2 ⟨.script _, hf⟩, hm.resumers, trivial⟩
    · exact ⟨hm.frames, hm.resumers, trivial⟩

theorem deliverTo (hm : m.Handles) {f : Frame} (hw : f.waiting.Handles) (hf : Frames.Handle fs)
    (values : List Value) : (m.deliverTo f fs values).Handles := by
  obtain ⟨w, d, k⟩ := f
  cases hw with
  | script a => exact hm.deliverScript _ a hf values
  | native hn => exact ⟨hf, hm.resumers, hn _ _⟩
  | attempt hh ha hn => exact ⟨hf, hm.resumers, hn _ _⟩
  | handling => exact ⟨hf, hm.resumers, trivial⟩

theorem deliver (hm : m.Handles) {values : List Value} (h : m.deliver values = .inl m') :
    m'.Handles := by
  obtain ⟨s, fs, rs, c⟩ := m
  cases fs with
  | cons f rest =>
    cases h
    obtain ⟨hw, hf⟩ := List.forall_mem_cons.1 hm.frames
    exact hm.deliverTo hw hf values
  | nil =>
    cases rs with
    | nil => cases h
    | cons r rest =>
      cases h
      obtain ⟨hr, hrest⟩ := List.forall_mem_cons.1 hm.resumers
      exact backTo s hr hrest _ _

theorem raise (hm : m.Handles) (f : Option Builtin) (v : Value) : (m.raise f v).Handles := by
  unfold Machine.raise
  split
  · exact ⟨hm.frames, hm.resumers, trivial⟩
  · split
    · exact ⟨hm.frames, hm.resumers, trivial⟩
    · exact ⟨pushed hm.frames .handling true, hm.resumers, trivial⟩

theorem unwindFrom (hm : m.Handles) {f : Frame} (hw : f.waiting.Handles) (hf : Frames.Handle fs)
    (v : Value) : (m.unwindFrom f fs v).Handles := by
  obtain ⟨w, d, k⟩ := f
  cases hw with
  | script a =>
    unfold Machine.unwindFrom
    dsimp only
    split
    · exact ⟨List.forall_mem_cons.2 ⟨.script _, hf⟩, hm.resumers, trivial⟩
    · exact ⟨hf, hm.resumers, trivial⟩
  | native hn => exact ⟨hf, hm.resumers, trivial⟩
  | attempt hh ha hn => exact ⟨hf, hm.resumers, hn _ _⟩
  | handling => exact ⟨hf, hm.resumers, trivial⟩

theorem unwind (hm : m.Handles) {v : Value} (h : m.unwind v = .inl m') : m'.Handles := by
  obtain ⟨s, fs, rs, c⟩ := m
  cases fs with
  | cons f rest =>
    cases h
    obtain ⟨hw, hf⟩ := List.forall_mem_cons.1 hm.frames
    exact hm.unwindFrom hw hf v
  | nil =>
    cases rs with
    | nil => cases h
    | cons r rest =>
      cases h
      obtain ⟨hr, hrest⟩ := List.forall_mem_cons.1 hm.resumers
      exact backTo s hr hrest _ _

theorem step (hm : m.Handles) (h : m.step = .inl m') : m'.Handles := by
  obtain ⟨s, fs, rs, c⟩ := m
  have hr : Machine.Handles ⟨s, fs, rs, .advance⟩ := ⟨hm.frames, hm.resumers, trivial⟩
  cases c with
  | advance =>
    obtain _ | ⟨⟨w, d, k⟩, rest⟩ := fs
    · cases h
      exact ⟨hm.frames, hm.resumers, trivial⟩
    · cases w with
      | script a =>
        cases h
        exact advance s d k a (List.forall_mem_cons.1 hm.frames).2 hm.resumers
      | _ =>
        cases h
        exact ⟨hm.frames, hm.resumers, trivial⟩
  | call f args =>
    cases h
    exact hr.call f args false
  | callInPlace f args =>
    cases h
    exact hr.call f args true
  | deliver values => exact hr.deliver h
  | raise f v =>
    cases h
    exact hr.raise f v
  | unwind v => exact hr.unwind h
  | native f n =>
    cases h
    exact hr.native hm.control

theorem after (hm : m.Handles) {n : Nat} (h : m.after n = some m') : m'.Handles := by
  induction n generalizing m with
  | zero =>
    cases h
    exact hm
  | succ n ih =>
    rw [Machine.after] at h
    split at h
    · rename_i hstep
      exact ih (hm.step hstep) h
    · cases h

end Handles

end Machine

end ScriptHost.Lua

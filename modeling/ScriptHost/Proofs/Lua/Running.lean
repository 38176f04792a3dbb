import ScriptHost.Proofs.Lua.Steps

/-!
# Runs on renamed stores

Machines that differ by a renaming take the same steps (`Machine.step_renamed`), so that calls
from outside end alike (`Store.Renamed.call`).
-/

namespace ScriptHost.Lua

variable {ρ : Renaming} {s t : Store}

structure Resumer.Renamed (ρ : Renaming) (r q : Resumer) : Prop where
  thread : q.thread = ρ.threads r.thread
  frames : Frames.Renamed ρ r.frames q.frames
  f : q.f = r.f.rename ρ
  next : ∀ {s t : Store}, s.Renamed ρ t → ∀ result,
    (r.next s result).Renamed ρ (q.next t (renameResult ρ result))

/-- The same comes next. -/
inductive Control.Renamed (ρ : Renaming) : Control → Control → Prop where
  | advance : Renamed ρ .advance .advance
  | call {f g : Value} {vs ws : List Value} (hf : g = f.rename ρ)
      (hv : ws = vs.map (Value.rename ρ)) : Renamed ρ (.call f vs) (.call g ws)
  | callInPlace {f g : Value} {vs ws : List Value} (hf : g = f.rename ρ)
      (hv : ws = vs.map (Value.rename ρ)) : Renamed ρ (.callInPlace f vs) (.callInPlace g ws)
  | deliver {vs ws : List Value} (hv : ws = vs.map (Value.rename ρ)) :
      Renamed ρ (.deliver vs) (.deliver ws)
  | raise {f g : Option Builtin} {v w : Value} (hf : g = f.map (Builtin.rename ρ))
      (hv : w = v.rename ρ) : Renamed ρ (.raise f v) (.raise g w)
  | unwind {v w : Value} (hv : w = v.rename ρ) : Renamed ρ (.unwind v) (.unwind w)
  | native {f g : Builtin} {n k : Native} (hf : g = f.rename ρ) (hn : n.Renamed ρ k) :
      Renamed ρ (.native f n) (.native g k)

abbrev Resumers.Renamed (ρ : Renaming) : List Resumer → List Resumer → Prop :=
  List.Forall₂ (Resumer.Renamed ρ)

structure Machine.Renamed (ρ : Renaming) (m n : Machine) : Prop where
  store : m.store.Renamed ρ n.store
  frames : Frames.Renamed ρ m.frames n.frames
  resumers : Resumers.Renamed ρ m.resumers n.resumers
  control : m.control.Renamed ρ n.control

/-- Both runs end in the same way. -/
inductive Ended.Renamed (ρ : Renaming) : Ended → Ended → Prop where
  | returned {s t : Store} {vs ws : List Value} (h : s.Renamed ρ t)
      (hv : ws = vs.map (Value.rename ρ)) : Renamed ρ (.returned s vs) (.returned t ws)
  | failed {s t : Store} {v w : Value} (h : s.Renamed ρ t) (hv : w = v.rename ρ) :
      Renamed ρ (.failed s v) (.failed t w)
  | outOfSteps {s t : Store} (h : s.Renamed ρ t) : Renamed ρ (.outOfSteps s) (.outOfSteps t)

namespace Machine

variable {m n : Machine} {fs gs : List Frame}

theorem Renamed.ite {c : Prop} [Decidable c] {m m' n n' : Machine} (h : c → m.Renamed ρ n)
    (h' : ¬c → m'.Renamed ρ n') :
    (if c then m else m').Renamed ρ (if c then n else n') :=
  ite_related h h'

theorem fault_renamed (hm : m.Renamed ρ n) (h : s.Renamed ρ t) (hf : Frames.Renamed ρ fs gs)
    (f : Option Builtin) {e e' : Fault} (he : e' = e.rename ρ) :
    (m.fault s fs f e).Renamed ρ (n.fault t gs (f.map (Builtin.rename ρ)) e') := by
  subst he
  exact ⟨h, hf, hm.resumers, .raise rfl (faultValue_renamed hf f e)⟩

/-! ## Calls -/

theorem newCells_renamed (values : List Value) (h : s.Renamed ρ t) (cells : Array Nat) :
    (newCells s cells values).1.Renamed ρ
        (newCells t (cells.map ρ.cells) (values.map (Value.rename ρ))).1 ∧
      (newCells t (cells.map ρ.cells) (values.map (Value.rename ρ))).2 =
        (newCells s cells values).2.map ρ.cells := by
  induction values generalizing s t cells with
  | nil => exact ⟨h, rfl⟩
  | cons v rest ih =>
    have hrest := ih (h.newCell v) (cells.push (s.newCell v).2)
    rw [Array.map_push, ← h.newCell_address] at hrest
    exact hrest

theorem parametersOf_rename (p : Prototype) (args : List Value) :
    parametersOf p (args.map (Value.rename ρ)) = (parametersOf p args).map (Value.rename ρ) := by
  simp [parametersOf, List.map_take]

theorem entered_rename (address : Nat) (p : Prototype) (slots : Array Nat) (args : List Value)
    (isTail : Bool) :
    entered (ρ.closures address) p (slots.map ρ.cells) (args.map (Value.rename ρ)) isTail =
      (entered address p slots args isTail).rename ρ := by
  simp only [entered, Activation.rename]
  split <;> simp [List.map_drop]

theorem isNested_renamed (h : Frames.Renamed ρ fs gs) : isNested gs = isNested fs := by
  cases h with
  | nil => rfl
  | cons hf _ => simp only [isNested, List.head?_cons, Frame.callsPlainly_renamed hf]

theorem enter_renamed (hm : m.Renamed ρ n) (address : Nat) (args : List Value) (isTail : Bool) :
    (m.enter address args isTail).Renamed ρ
      (n.enter (ρ.closures address) (args.map (Value.rename ρ)) isTail) := by
  have hp : (n.store.closures.getD (ρ.closures address) default).prototype =
      (m.store.closures.getD address default).prototype :=
    (congrArg Closure.prototype (hm.store.closure address)).trans rfl
  unfold enter
  dsimp only
  rw [hp, isNested_renamed hm.frames, depth_renamed hm.frames, nesting_renamed hm.frames,
    parametersOf_rename]
  refine .ite (fun _ => fault_renamed hm hm.store hm.frames none rfl) fun _ => ?_
  refine .ite (fun _ => fault_renamed hm hm.store hm.frames none rfl) fun _ => ?_
  obtain ⟨hstore, hslots⟩ := newCells_renamed (parametersOf
    (m.store.closures.getD address default).prototype args) hm.store #[]
  rw [Array.map_empty] at hstore hslots
  rw [hslots, entered_rename]
  exact ⟨hstore, pushed_renamed hm.frames (.script _) _, hm.resumers, .advance⟩

theorem callOther_renamed (hm : m.Renamed ρ n) (f : Value) (args : List Value) :
    (m.callOther f args).Renamed ρ (n.callOther (f.rename ρ) (args.map (Value.rename ρ))) := by
  rw [callOther, callOther, hm.store.event, hm.store.cannot, Frame.calleeName?_renamed hm.frames]
  cases m.store.event f "__call" with
  | nil => exact fault_renamed hm hm.store hm.frames none rfl
  | _ => exact ⟨hm.store, hm.frames, hm.resumers, .call rfl rfl⟩

theorem call_renamed (hm : m.Renamed ρ n) (f : Value) (args : List Value) (isTail : Bool) :
    (m.call f args isTail).Renamed ρ
      (n.call (f.rename ρ) (args.map (Value.rename ρ)) isTail) := by
  have hother := callOther_renamed hm f args
  cases f with
  | closure address => exact enter_renamed hm address args isTail
  | builtin b =>
    simp only [Value.rename_builtin, call, nesting_renamed hm.frames]
    refine .ite (fun _ => fault_renamed hm hm.store hm.frames none rfl) fun _ => ?_
    exact ⟨hm.store, hm.frames, hm.resumers, .native rfl (Library.run_renamed b hm.store args)⟩
  | _ => exact hother

/-! ## Threads -/

theorem framesOf_renamed (calls : List Activation) (nesting : Nat) :
    Frames.Renamed ρ (framesOf calls nesting)
      (framesOf (calls.map (Activation.rename ρ)) nesting) := by
  have hfold (calls : List Activation) : ∀ {fs gs : List Frame}, Frames.Renamed ρ fs gs →
      Frames.Renamed ρ
        (calls.foldl (fun frames a => ⟨.script a, depth frames + 1, nesting⟩ :: frames) fs)
        ((calls.map (Activation.rename ρ)).foldl
          (fun frames a => ⟨.script a, depth frames + 1, nesting⟩ :: frames) gs) := by
    induction calls with
    | nil => exact fun h => h
    | cons a rest ih =>
      exact fun h => ih (.cons ⟨.script a, congrArg (· + 1) (depth_renamed h), rfl⟩ h)
  rw [framesOf, framesOf, ← List.map_reverse]
  exact hfold calls.reverse .nil

theorem started_renamed (hm : m.Renamed ρ n) (h : s.Renamed ρ t) (f : Builtin)
    {next other : Store → Except Value (List Value) → Native}
    (hn : ∀ {s t : Store}, s.Renamed ρ t → ∀ r,
      (next s r).Renamed ρ (other t (renameResult ρ r)))
    (thread : Nat) (hf : Frames.Renamed ρ fs gs) {c c' : Control} (hc : c.Renamed ρ c') :
    (m.started s f next thread fs c).Renamed ρ
      (n.started t (f.rename ρ) other (ρ.threads thread) gs c') := by
  have hs := ((h.setThread s.current .waiting).setThread thread .running).goOn thread
  rw [← h.current] at hs
  exact ⟨hs, hf, .cons ⟨h.current, hm.frames, rfl, hn⟩ hm.resumers, hc⟩

theorem backTo_renamed (h : s.Renamed ρ t) {r q : Resumer} (hr : r.Renamed ρ q)
    {rs qs : List Resumer} (hrs : Resumers.Renamed ρ rs qs) {thread thread' : Thread}
    (ht : thread' = thread.rename ρ) (result : Except Value (List Value)) :
    (backTo s r rs thread result).Renamed ρ
      (backTo t q qs thread' (renameResult ρ result)) := by
  subst ht
  have hs := ((h.setThread s.current thread).setThread r.thread .running).goOn r.thread
  rw [← h.current, ← hr.thread] at hs
  exact ⟨hs, hr.frames, hrs, .native hr.f (hr.next hs result)⟩

theorem yield_renamed (hm : m.Renamed ρ n) (h : s.Renamed ρ t) (values : List Value) :
    (m.yield s values).Renamed ρ (n.yield t (values.map (Value.rename ρ))) := by
  have hscripts := Frame.scripts_renamed hm.frames
  have hres := hm.resumers
  unfold yield
  rw [hscripts]
  generalize m.resumers = rs at hres ⊢
  generalize n.resumers = qs at hres ⊢
  cases hres with
  | nil => exact fault_renamed hm h hm.frames none rfl
  | cons hr hrs =>
    cases m.frames.mapM Frame.script? with
    | none => exact fault_renamed hm h hm.frames none rfl
    | some calls => exact backTo_renamed h hr hrs rfl (.ok values)

theorem canYield_renamed (hm : m.Renamed ρ n) :
    (!n.resumers.isEmpty && (n.frames.mapM Frame.script?).isSome) =
      (!m.resumers.isEmpty && (m.frames.mapM Frame.script?).isSome) := by
  have hres := hm.resumers
  rw [Frame.scripts_renamed hm.frames, Option.isSome_map]
  generalize m.resumers = rs at hres ⊢
  generalize n.resumers = qs at hres ⊢
  cases hres <;> rfl

/-- A library function goes on in the same way. -/
theorem native_renamed (hm : m.Renamed ρ n) (f : Builtin) {k l : Native} (hk : k.Renamed ρ l) :
    (m.native f k).Renamed ρ (n.native (f.rename ρ) l) := by
  cases hk with
  | done h hv => exact ⟨h, hm.frames, hm.resumers, .deliver hv⟩
  | fail h he => exact fault_renamed hm h hm.frames (some f) he
  | call h hf hv hn =>
    exact ⟨h, pushed_renamed hm.frames (.native f hn) true, hm.resumers, .call hf hv⟩
  | attempt h hf hv hh hn =>
    subst hh
    exact ⟨h, pushed_renamed hm.frames (.attempt f _ hn) true, hm.resumers, .call hf hv⟩
  | @resume s t a b vs ws next other h ha hv hn =>
    subst ha
    unfold native
    dsimp only
    rw [h.thread, nesting_renamed hm.frames]
    cases s.thread a with
    | suspended calls =>
      exact started_renamed hm h f hn a (framesOf_renamed calls _) (.deliver hv)
    | fresh g => exact started_renamed hm h f hn a .nil (.call rfl hv)
    | _ => exact ⟨h, hm.frames, hm.resumers, .deliver rfl⟩
  | yield h hv =>
    subst hv
    exact yield_renamed hm h _
  | canYield h hn =>
    refine ⟨h, hm.frames, hm.resumers, .native rfl ?_⟩
    rw [canYield_renamed hm]
    exact hn _

/-! ## Steps -/

theorem receive_rename (a : Activation) (values : List Value) (instr : Instr) :
    receive (a.rename ρ) (values.map (Value.rename ρ)) instr =
      (receive a values instr).rename ρ := by
  have hfirst : (values.map (Value.rename ρ)).headD .nil = (values.headD .nil).rename ρ :=
    Value.headD_rename values
  unfold receive
  rw [hfirst]
  cases instr with
  | call _ _ want _ => exact a.accept_rename values want
  | method => exact a.pushUnder_rename _
  | compare op => cases op <;> simp [Activation.push, Activation.rename]
  | eachCall _ count => simp [Activation.rename, List.map_take]
  | _ => rfl

theorem afterStep_renamed {back other : Activation → List Frame}
    (hb : ∀ a, Frames.Renamed ρ (back a) (other (a.rename ρ))) (hf : Frames.Renamed ρ fs gs)
    {rs qs : List Resumer} (hrs : Resumers.Renamed ρ rs qs) {e e' : Effect}
    (he : e.Renamed ρ e') :
    (afterStep back fs rs e).Renamed ρ (afterStep other gs qs e') := by
  cases he with
  | next h ha => exact ⟨h, ha ▸ hb _, hrs, .advance⟩
  | call h ha hg hv => exact ⟨h, ha ▸ hb _, hrs, .call hg hv⟩
  | replace h hg hv => exact ⟨h, hf, hrs, .callInPlace hg hv⟩
  | fail h ha he =>
    subst ha he
    exact ⟨h, hb _, hrs, .raise rfl (faultValue_renamed (hb _) none _)⟩
  | leave h hv => exact ⟨h, hf, hrs, .deliver hv⟩

theorem advance_renamed (h : s.Renamed ρ t) (depth nesting : Nat) (a : Activation)
    (hf : Frames.Renamed ρ fs gs) {rs qs : List Resumer} (hrs : Resumers.Renamed ρ rs qs) :
    (advance s depth nesting a fs rs).Renamed ρ
      (advance t depth nesting (a.rename ρ) gs qs) := by
  have hcode : (a.rename ρ).prototype.code[(a.rename ρ).pc]? = a.prototype.code[a.pc]? := rfl
  rw [advance, advance, hcode]
  cases a.prototype.code[a.pc]? with
  | none => exact ⟨h, hf, hrs, .deliver rfl⟩
  | some step =>
    refine afterStep_renamed (fun a => ?_) hf hrs
      (effect_renamed h { a with pc := a.pc + 1 } step.instr)
    exact .cons ⟨.script a, rfl, rfl⟩ hf

/-- Both machines go on alike, or both runs end alike. -/
abbrev Stepped.Renamed (ρ : Renaming) : Machine ⊕ Ended → Machine ⊕ Ended → Prop :=
  Sum.LiftRel (Machine.Renamed ρ) (Ended.Renamed ρ)

theorem deliverScript_renamed (hm : m.Renamed ρ n) {f g : Frame} (hfg : f.Renamed ρ g)
    (a : Activation) (hf : Frames.Renamed ρ fs gs) (values : List Value) :
    (m.deliverScript f a fs values).Renamed ρ
      (n.deliverScript g (a.rename ρ) gs (values.map (Value.rename ρ))) := by
  have hraising : (a.rename ρ).raising = a.raising.map (Value.rename ρ) := rfl
  unfold deliverScript
  rw [hraising]
  cases a.raising with
  | some e => exact ⟨hm.store, hm.frames, hm.resumers, .unwind rfl⟩
  | none =>
    simp only [Option.map_none, Activation.current?_rename]
    cases a.current? with
    | none => exact ⟨hm.store, hm.frames, hm.resumers, .advance⟩
    | some step =>
      refine .ite (fun _ => ⟨hm.store, hf, hm.resumers, .deliver rfl⟩) fun _ => ?_
      rw [receive_rename]
      exact ⟨hm.store, .cons ⟨.script _, hfg.depth, hfg.nesting⟩ hf, hm.resumers, .advance⟩

theorem deliverTo_renamed (hm : m.Renamed ρ n) {f g : Frame} (hfg : f.Renamed ρ g)
    (hf : Frames.Renamed ρ fs gs) (values : List Value) :
    (m.deliverTo f fs values).Renamed ρ
      (n.deliverTo g gs (values.map (Value.rename ρ))) := by
  have hscript (a : Activation) := deliverScript_renamed hm hfg a hf values
  have hw := hfg.waiting
  unfold deliverTo
  generalize f.waiting = w at hw ⊢
  generalize g.waiting = w' at hw ⊢
  cases hw with
  | script a => exact hscript a
  | native f hn => exact ⟨hm.store, hf, hm.resumers, .native rfl (hn hm.store values)⟩
  | attempt f handler hn =>
    exact ⟨hm.store, hf, hm.resumers, .native rfl (hn hm.store (.ok values))⟩
  | handling => exact ⟨hm.store, hf, hm.resumers, .unwind (Value.headD_rename values)⟩

theorem finishThread_renamed (hm : m.Renamed ρ n) {r q : Resumer} (hr : r.Renamed ρ q)
    {rs qs : List Resumer} (hrs : Resumers.Renamed ρ rs qs)
    (result : Except Value (List Value)) :
    (m.finishThread r rs result).Renamed ρ (n.finishThread q qs (renameResult ρ result)) := by
  refine backTo_renamed hm.store hr hrs ?_ result
  cases result <;> rfl

theorem deliver_renamed (hm : m.Renamed ρ n) (values : List Value) :
    Stepped.Renamed ρ (m.deliver values) (n.deliver (values.map (Value.rename ρ))) := by
  have hframes := hm.frames
  have hres := hm.resumers
  unfold deliver
  generalize m.frames = fs at hframes ⊢
  generalize n.frames = gs at hframes ⊢
  cases hframes with
  | nil =>
    generalize m.resumers = rs at hres ⊢
    generalize n.resumers = qs at hres ⊢
    cases hres with
    | nil => exact .inr (.returned hm.store rfl)
    | cons hr hrs => exact .inl (finishThread_renamed hm hr hrs (.ok values))
  | cons hfg hf => exact .inl (deliverTo_renamed hm hfg hf values)

theorem noted_renamed (h : s.Renamed ρ t) (c : Prop) [Decidable c] (traceback : Bytes) :
    (if c then { s with traceback } else s).Renamed ρ (if c then { t with traceback } else t) := by
  split
  · exact { h with traceback := rfl }
  · exact h

theorem traced_renamed (hm : m.Renamed ρ n) (f : Option Builtin) (v : Value) :
    (m.traced f v).Renamed ρ (n.traced (f.map (Builtin.rename ρ)) (v.rename ρ)) := by
  have hlevels := Traceback.levels_renamed hm.store hm.frames f
  have hempty : n.resumers.isEmpty = m.resumers.isEmpty := by
    have hres := hm.resumers
    generalize m.resumers = rs at hres ⊢
    generalize n.resumers = qs at hres ⊢
    cases hres <;> rfl
  have hother := noted_renamed hm.store (m.resumers.isEmpty ∧ !Traceback.isCaught m.frames)
    (Traceback.text (.ofHandler :: Traceback.levels m.store f m.frames))
  cases v with
  | failure a =>
    simp only [Value.rename_failure, traced, hlevels]
    exact hm.store.noteOrigin a _
  | _ =>
    simp only [Value.rename, traced, hlevels, hempty, Traceback.isCaught_renamed hm.frames]
    exact hother

theorem raise_renamed (hm : m.Renamed ρ n) (f : Option Builtin) (v : Value) :
    (m.raise f v).Renamed ρ (n.raise (f.map (Builtin.rename ρ)) (v.rename ρ)) := by
  rw [raise, raise, handler?_renamed hm.frames, nesting_renamed hm.frames]
  cases handler? m.frames with
  | none => exact ⟨traced_renamed hm f v, hm.frames, hm.resumers, .unwind rfl⟩
  | some h =>
    refine .ite (fun _ => ⟨hm.store, hm.frames, hm.resumers, .unwind rfl⟩) fun _ => ?_
    exact ⟨hm.store, pushed_renamed hm.frames .handling true, hm.resumers, .call rfl rfl⟩

theorem unwindFrom_renamed (hm : m.Renamed ρ n) {f g : Frame} (hfg : f.Renamed ρ g)
    (hf : Frames.Renamed ρ fs gs) (v : Value) :
    (m.unwindFrom f fs v).Renamed ρ (n.unwindFrom g gs (v.rename ρ)) := by
  have hw := hfg.waiting
  unfold unwindFrom
  generalize f.waiting = w at hw ⊢
  generalize g.waiting = w' at hw ⊢
  cases hw with
  | script a =>
    have hvalue := slotValue_renamed hm.store a
    have hguarded : (a.rename ρ).guarded = a.guarded := rfl
    dsimp only
    rw [hguarded]
    cases a.guarded with
    | nil => exact ⟨hm.store, hf, hm.resumers, .unwind rfl⟩
    | cons slot guarded =>
      refine ⟨hm.store, .cons ⟨.script { a with guarded, raising := some v }, hfg.depth,
        hfg.nesting⟩ hf, hm.resumers, .call ?_ ?_⟩
      · rw [hvalue, hm.store.event]
      · rw [hvalue]
        rfl
  | native f hn => exact ⟨hm.store, hf, hm.resumers, .unwind rfl⟩
  | attempt f handler hn =>
    exact ⟨hm.store, hf, hm.resumers, .native rfl (hn hm.store (.error v))⟩
  | handling => exact ⟨hm.store, hf, hm.resumers, .unwind rfl⟩

theorem unwind_renamed (hm : m.Renamed ρ n) (v : Value) :
    Stepped.Renamed ρ (m.unwind v) (n.unwind (v.rename ρ)) := by
  have hframes := hm.frames
  have hres := hm.resumers
  unfold unwind
  generalize m.frames = fs at hframes ⊢
  generalize n.frames = gs at hframes ⊢
  cases hframes with
  | nil =>
    generalize m.resumers = rs at hres ⊢
    generalize n.resumers = qs at hres ⊢
    cases hres with
    | nil => exact .inr (.failed hm.store rfl)
    | cons hr hrs => exact .inl (finishThread_renamed hm hr hrs (.error v))
  | cons hfg hf => exact .inl (unwindFrom_renamed hm hfg hf v)

/-- **Steps of machines.** Machines that differ by a renaming still do so after a step. -/
theorem step_renamed (hm : m.Renamed ρ n) : Stepped.Renamed ρ m.step n.step := by
  obtain ⟨s, fs, rs, c⟩ := m
  obtain ⟨t, gs, qs, c'⟩ := n
  have hr : Machine.Renamed ρ ⟨s, fs, rs, .advance⟩ ⟨t, gs, qs, .advance⟩ :=
    ⟨hm.store, hm.frames, hm.resumers, .advance⟩
  have hc : c.Renamed ρ c' := hm.control
  cases hc with
  | advance =>
    have hframes : Frames.Renamed ρ fs gs := hm.frames
    induction hframes using Frames.renamed_induction with
    | script a d k hf => exact .inl (advance_renamed hm.store d k a hf hm.resumers)
    | nil | native | attempt | handling =>
      exact .inl ⟨hm.store, hm.frames, hm.resumers, .deliver rfl⟩
  | call hf hv =>
    subst hf hv
    exact .inl (call_renamed hr _ _ false)
  | callInPlace hf hv =>
    subst hf hv
    exact .inl (call_renamed hr _ _ true)
  | deliver hv =>
    subst hv
    exact deliver_renamed hr _
  | raise hf hv =>
    subst hf hv
    exact .inl (raise_renamed hr _ _)
  | unwind hv =>
    subst hv
    exact unwind_renamed hr _
  | native hf hn =>
    subst hf
    exact .inl (native_renamed hr _ hn)

/-- **Runs of machines.** Machines that differ by a renaming end alike. -/
theorem run_renamed (fuel : Nat) (hm : m.Renamed ρ n) : (run fuel m).Renamed ρ (run fuel n) := by
  induction fuel generalizing m n with
  | zero => exact .outOfSteps hm.store
  | succ fuel ih =>
    have hs := step_renamed hm
    rw [run, run]
    generalize m.step = x at hs ⊢
    generalize n.step = y at hs ⊢
    cases hs with
    | inl hm => exact ih hm
    | inr he => exact he

end Machine

/-- Calls from outside end alike. -/
theorem Store.Renamed.call (h : s.Renamed ρ t) (f : Value) (args : List Value) :
    (s.call f args).Renamed ρ (t.call (f.rename ρ) (args.map (Value.rename ρ))) :=
  Machine.run_renamed _ ⟨h, .nil, .nil, .call rfl rfl⟩

end ScriptHost.Lua

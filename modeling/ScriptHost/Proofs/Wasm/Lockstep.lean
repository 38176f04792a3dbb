import ScriptHost.Proofs.Wasm.Twins

/-!
# Runs in stores that are alike

A run in one of two twin stores does what the same run does in the other: each step does
(`Machine.step_twins`), so that both end alike (`Store.call_twins`). The host is told the same and
answers the same. Whatever the first run cannot refer to, the second does not touch.
-/

namespace ScriptHost.Wasm

/-- Both fail for the same reason, or both give what is related. -/
inductive Matches {ε α β : Type} (R : α → β → Prop) : Except ε α → Except ε β → Prop
  | ok {x : α} {y : β} (h : R x y) : Matches R (.ok x) (.ok y)
  | error (e : ε) : Matches R (.error e) (.error e)

variable {same : Prop} {P : Pairing} {base s s' : Store}

/-! ## Functions of the host -/

namespace Host.Twins

variable {h k home : Host}

theorem handles (hh : h.Twins same k home) : k.handles = h.handles :=
  hh.right.handles.trans hh.left.handles.symm

theorem selection (hh : h.Twins same k home) : k.selection = h.selection :=
  hh.right.selection.trans hh.left.selection.symm

theorem write (hh : h.Twins same k home) (channel : Channel) (text : String) :
    (h.write channel text).Twins same (k.write channel text) home where
  left := ⟨hh.left.handles, hh.left.selection⟩
  right := ⟨hh.right.handles, hh.right.selection⟩
  eq_of_same hs := by rw [hh.eq_of_same hs]

theorem setMessage (hh : h.Twins same k home) (text : String) :
    Host.Twins same { h with message := text } { k with message := text } home where
  left := ⟨hh.left.handles, hh.left.selection⟩
  right := ⟨hh.right.handles, hh.right.selection⟩
  eq_of_same hs := by rw [hh.eq_of_same hs]

/-- Arguments that are alike are the same, or there is a function among them. -/
theorem arguments_cases {args args' : List Value} (ha : List.Forall₂ (Value.Alike P) args args') :
    args' = args ∨ ∃ r r', .funcref r ∈ args ∧ .funcref r' ∈ args' := by
  induction ha with
  | nil => exact .inl rfl
  | cons hv _ ih =>
    obtain rfl | ⟨r, r', hr, hr'⟩ := ih
    · cases hv with
      | funcref _ => exact .inr ⟨_, _, List.mem_cons_self, List.mem_cons_self⟩
      | _ => exact .inl rfl
    · exact .inr ⟨r, r', List.mem_cons_of_mem _ hr, List.mem_cons_of_mem _ hr'⟩

/-- No function of the host is for functions. -/
theorem call_funcref {memory : Option Memory} {f : HostFunction} {args : List Value}
    {r : Option Nat} (hr : .funcref r ∈ args) (hf : ∀ zeros, f ≠ .nothingThere zeros) :
    h.call memory f args = .error .stuck := by
  obtain ht | hstuck := f.takes_or_stuck memory args
  · cases ht with
    | nothingThere => exact absurd rfl (hf _)
    | _ => simp at hr
  · exact hstuck h

/-- What a function of the host does to the memory and what it gives back depends on nothing that
was written. -/
theorem call_same (hh : h.Twins same k home) (memory : Option Memory) (f : HostFunction)
    (args : List Value) :
    Matches (fun x y => x.1.Twins same y.1 home ∧ y.2.1 = x.2.1 ∧
        List.Forall₂ (Value.Alike P) x.2.2 y.2.2)
      (h.call memory f args) (k.call memory f args) := by
  have number (n : UInt32) : List.Forall₂ (Value.Alike P) [.i32 n] [.i32 n] := .cons (.i32 n) .nil
  have hhandle (id : UInt32) : k.handle? id = h.handle? id := by
    rw [Host.handle?, Host.handle?, hh.handles]
  obtain ht | hstuck := f.takes_or_stuck memory args
  · unfold Host.call
    cases ht with
    | print | printError =>
      dsimp only
      split
      · exact .ok ⟨hh.write _ _, rfl, .nil⟩
      · exact .ok ⟨hh, rfl, .nil⟩
    | setMessage =>
      dsimp only
      split
      · exact .ok ⟨hh.setMessage _, rfl, .nil⟩
      · exact .ok ⟨hh, rfl, .nil⟩
    | handleLength id =>
      have hlength : k.handleLength id = h.handleLength id := by
        rw [Host.handleLength, Host.handleLength, hhandle]
      dsimp only
      rw [hlength]
      exact .ok ⟨hh, rfl, number _⟩
    | handleRead id ptr len =>
      have hread : k.handleRead memory id ptr len = h.handleRead memory id ptr len := by
        rw [Host.handleRead, Host.handleRead, hhandle]
      dsimp only
      rw [hread]
      exact .ok ⟨hh, rfl, number _⟩
    | selectionLength =>
      have hlength : k.selectionLength = h.selectionLength := by
        rw [Host.selectionLength, Host.selectionLength, hh.selection]
      dsimp only
      rw [hlength]
      exact .ok ⟨hh, rfl, number _⟩
    | selectionGet i =>
      have hget : k.selectionGet i = h.selectionGet i := by
        rw [Host.selectionGet, Host.selectionGet, hh.selection]
      dsimp only
      rw [hget]
      exact .ok ⟨hh, rfl, .cons (.i64 _) .nil⟩
    | exit =>
      dsimp only
      repeat' split
      all_goals exact .error _
    | nothingThere =>
      cases memory with
      | none => exact .error _
      | some memory =>
        dsimp only
        split
        · exact .ok ⟨hh, rfl, number _⟩
        · exact .ok ⟨hh, rfl, number _⟩
  · rw [hstuck h, hstuck k]
    exact .error _

theorem call (hh : h.Twins same k home) (memory : Option Memory) (f : HostFunction)
    {args args' : List Value} (ha : List.Forall₂ (Value.Alike P) args args') :
    Matches (fun x y => x.1.Twins same y.1 home ∧ y.2.1 = x.2.1 ∧
        List.Forall₂ (Value.Alike P) x.2.2 y.2.2)
      (h.call memory f args) (k.call memory f args') := by
  by_cases hf : ∃ zeros, f = .nothingThere zeros
  · obtain ⟨zeros, rfl⟩ := hf
    have hbits : args'.map (fun v => v.bits.toUInt32) = args.map fun v => v.bits.toUInt32 := by
      induction ha with
      | nil => rfl
      | cons hv _ ih => rw [List.map_cons, List.map_cons, hv.bits_eq, ih]
    have hargs : k.call memory (.nothingThere zeros) args' =
        k.call memory (.nothingThere zeros) args := by
      unfold Host.call
      dsimp only
      rw [hbits]
    rw [hargs]
    exact hh.call_same memory _ args
  · have hf := not_exists.1 hf
    obtain rfl | ⟨r, r', hr, hr'⟩ := arguments_cases ha
    · exact hh.call_same memory f _
    · rw [call_funcref hr hf, call_funcref hr' hf]
      exact .error _

end Host.Twins

/-! ## Calls of the host -/

/-- Exports of the same name are paired. -/
theorem Instance.Alike.lookup {i j : Instance} (h : i.Alike P j) (name : String) :
    Option.Rel (Extern.Alike P) (i.exports.lookup name) (j.exports.lookup name) :=
  forall₂_lookup h.exports name

namespace Store.Twins

theorem exportedMemory? (h : s.Twins same P s' base) {o o' : Nat} (ho : P.owners o o') :
    Option.Rel (P.places .memory) (s.exportedMemory? o) (s'.exportedMemory? o') := by
  obtain ⟨i, j, hi, hj, hij⟩ := h.instances.related ho
  have hlookup := hij.lookup "memory"
  simp only [Store.exportedMemory?, hi, hj, bind, Option.bind_some]
  generalize i.exports.lookup "memory" = d at hlookup ⊢
  generalize j.exports.lookup "memory" = e at hlookup ⊢
  cases hlookup with
  | none => exact .none
  | @some d e hde =>
    dsimp only [Option.bind_some]
    rw [hde.kind]
    split
    · rename_i hk
      exact .some (hk ▸ hde.address)
    · exact .none

end Store.Twins

namespace Machine

/-- A function of the host finds the same memory from paired callers. -/
theorem callHost_twins (hs : s.Twins same P s' base) {caller caller' : Option Nat}
    (hc : Option.Rel P.owners caller caller') (f : HostFunction) {args args' : List Value}
    (ha : List.Forall₂ (Value.Alike P) args args') :
    Matches (fun x y => x.1.Twins same P y.1 base ∧ List.Forall₂ (Value.Alike P) x.2 y.2)
      (callHost s caller f args) (callHost s' caller' f args') := by
  have haddress : Option.Rel (P.places .memory) (caller.bind s.exportedMemory?)
      (caller'.bind s'.exportedMemory?) := by
    cases hc with
    | none => exact .none
    | some ho => exact hs.exportedMemory? ho
  unfold callHost
  generalize caller.bind s.exportedMemory? = a at haddress ⊢
  generalize caller'.bind s'.exportedMemory? = b at haddress ⊢
  have hmemory : b.bind (s'.memories[·]?) = a.bind (s.memories[·]?) := by
    cases haddress with
    | none => rfl
    | some hp =>
      obtain ⟨m, _, hm, hm', rfl⟩ := hs.memories.related hp
      exact hm'.trans hm.symm
  dsimp only
  rw [hmemory]
  have hcall := hs.host.call (a.bind (s.memories[·]?)) f ha
  generalize s.host.call _ f args = x at hcall ⊢
  generalize s'.host.call _ f args' = y at hcall ⊢
  cases hcall with
  | error e => exact .error e
  | @ok x y hxy =>
    obtain ⟨h, m, results⟩ := x
    obtain ⟨k, m', results'⟩ := y
    obtain ⟨hh, rfl, hr⟩ := hxy
    dsimp only at hh hr ⊢
    have hs' := hs.setHost hh
    cases haddress with
    | none => exact .ok ⟨hs', hr⟩
    | some hp =>
      cases m' with
      | none => exact .ok ⟨hs', hr⟩
      | some m => exact .ok ⟨hs'.setMemory hp m, hr⟩

end Machine

/-! ## Steps and runs -/

/-- Machines whose calls go together. -/
structure Machine.Twins (same : Prop) (P : Pairing) (base : Store) (m m' : Machine) : Prop where
  store : m.store.Twins same P m'.store base
  frames : List.Forall₂ (Frame.Alike P) m.frames m'.frames
  depth : m'.depth = m.depth

/-- Runs that end with values that are alike, or for the same reason. -/
inductive Ended.Twins (same : Prop) (P : Pairing) (base : Store) : Ended → Ended → Prop
  | values {s s' : Store} {vs ws : List Value} (hs : s.Twins same P s' base)
    (hv : List.Forall₂ (Value.Alike P) vs ws) : Twins same P base (.values s vs) (.values s' ws)
  | stopped {s s' : Store} (hs : s.Twins same P s' base) (reason : Stop) (inCode : Bool) :
    Twins same P base (.stopped s reason inCode) (.stopped s' reason inCode)

/-- What a step leads to on both sides. -/
abbrev StepTwins (same : Prop) (P : Pairing) (base : Store) :
    Machine ⊕ Ended → Machine ⊕ Ended → Prop :=
  Sum.LiftRel (Machine.Twins same P base) (Ended.Twins same P base)

namespace Machine

variable {f g : Frame} {rest rest' : List Frame} {i j : Instance}

theorem frameOf_alike {owner owner' : Nat} (ho : P.owners owner owner') (type : FuncType)
    (code : Code) {args args' : List Value} (ha : List.Forall₂ (Value.Alike P) args args') :
    (frameOf type owner code args).Alike P (frameOf type owner' code args') where
  owner := ho
  locals := by
    refine List.rel_append ha (List.forall₂_same.2 fun v hv => ?_)
    obtain ⟨⟨n, t⟩, -, hv⟩ := List.mem_flatMap.1 hv
    rw [List.eq_of_mem_replicate hv]
    exact .of_typed (.zero {} t)
  arity := rfl
  labels := .nil
  code := rfl
  stack := .nil

theorem call_twins (hs : s.Twins same P s' base) (hf : f.Alike P g)
    (hrest : List.Forall₂ (Frame.Alike P) rest rest') (depth : Nat) {a b : Nat}
    (hp : P.places .func a b) :
    (∃ m m', call s f rest depth a = .ok m ∧ call s' g rest' depth b = .ok m' ∧
        m.Twins same P base m') ∨
      ∃ e, call s f rest depth a = .error (s, e) ∧ call s' g rest' depth b = .error (s', e) := by
  obtain ⟨x, y, hx, hy, hxy⟩ := hs.functions.related hp
  simp only [call, hx, hy, hxy.type_eq]
  have hargs := List.rel_reverse (List.forall₂_take x.type.params.length hf.stack)
  have hbelow := hf.withStack (List.forall₂_drop x.type.params.length hf.stack)
  cases hxy with
  | host type h =>
    have hcall := callHost_twins hs (.some hf.owner) h hargs
    dsimp only at hcall ⊢
    generalize callHost s _ h _ = r at hcall ⊢
    generalize callHost s' _ h _ = r' at hcall ⊢
    cases hcall with
    | error e => exact .inr ⟨e, rfl, rfl⟩
    | ok h =>
      obtain ⟨hs', hr⟩ := h
      refine .inl ⟨_, _, rfl, rfl, hs', .cons ?_ hrest, rfl⟩
      exact hbelow.withStack (List.rel_append (List.rel_reverse hr) hbelow.stack)
  | code type code ho =>
    dsimp only at hargs hbelow ⊢
    split
    · exact .inl ⟨_, _, rfl, rfl, hs, .cons (frameOf_alike ho type code hargs)
        (.cons hbelow hrest), rfl⟩
    · exact .inr ⟨_, rfl, rfl⟩

theorem leave_twins (hs : s.Twins same P s' base) (hf : f.Alike P g)
    (hrest : List.Forall₂ (Frame.Alike P) rest rest') (depth : Nat) :
    StepTwins same P base (leave s f rest depth) (leave s' g rest' depth) := by
  have hresults := List.forall₂_take f.arity hf.stack
  unfold leave
  rw [hf.arity]
  cases hrest with
  | nil => exact .inr (.values hs (List.rel_reverse hresults))
  | cons hcaller hrest =>
    exact .inl ⟨hs, .cons (hcaller.withStack (List.rel_append hresults hcaller.stack)) hrest, rfl⟩

theorem enter_twins (hi : i.Alike P j) (hf : f.Alike P g) (type : BlockType)
    (body after : List Instr) (again : Option Instr) :
    Option.Rel (Frame.Alike P) (enter i f type body after again)
      (enter j g type body after again) := by
  have opened (t : FuncType) (k : Nat) (target : List Instr) : Frame.Alike P
      { f with
        labels := ⟨k, target, after, f.stack.drop t.params.length⟩ :: f.labels, code := body
        stack := f.stack.take t.params.length }
      { g with
        labels := ⟨k, target, after, g.stack.drop t.params.length⟩ :: g.labels, code := body
        stack := g.stack.take t.params.length } :=
    { hf with
      labels := .cons ⟨rfl, rfl, rfl, List.forall₂_drop _ hf.stack⟩ hf.labels
      code := rfl
      stack := List.forall₂_take _ hf.stack }
  unfold enter
  rw [hi.module]
  cases type with
  | results ts => cases again <;> exact .some (opened ⟨[], ts⟩ _ _)
  | index n =>
    dsimp only
    cases i.module.types[n]? with
    | none => exact .none
    | some t => cases again <;> exact .some (opened t _ _)

theorem jump_twins (hf : f.Alike P g) (n : Nat) :
    Option.Rel (Frame.Alike P) (f.jump? n) (g.jump? n) := by
  unfold Frame.jump?
  have hlabels := List.forall₂_drop n hf.labels
  generalize f.labels.drop n = ls at hlabels ⊢
  generalize g.labels.drop n = ks at hlabels ⊢
  cases hlabels with
  | nil => exact .none
  | @cons l k _ _ hl hrest =>
    refine .some { hf with labels := hrest, code := hl.target, stack := ?_ }
    rw [hl.arity]
    exact List.rel_append (List.forall₂_take l.arity hf.stack) hl.below

/-- A basic instruction goes on, jumps, calls or stops on both sides. -/
theorem step_basic_twins (hs : s.Twins same P s' base) (hi : s.instances[f.owner]? = some i)
    (hj : s'.instances[g.owner]? = some j) (hij : i.Alike P j) (hf : f.Alike P g)
    (hrest : List.Forall₂ (Frame.Alike P) rest rest') {op : Basic} {after : List Instr}
    (hcode : f.code = .basic op :: after) (depth : Nat) :
    StepTwins same P base (step ⟨s, f :: rest, depth⟩) (step ⟨s', g :: rest', depth⟩) := by
  have hframe : Frame.Alike P { f with code := after } { g with code := after } :=
    { hf with code := rfl }
  have heffect := effect_twins hs hij hframe op
  simp only [step, hf.code.trans hcode, hcode, hi, hj]
  generalize effect s i _ op = x at heffect ⊢
  generalize effect s' j _ op = y at heffect ⊢
  cases heffect with
  | error e => exact .inr (.stopped hs e true)
  | ok hs' hf' hx =>
    cases hx with
    | advance => exact .inl ⟨hs', .cons hf' hrest, rfl⟩
    | leave => exact leave_twins hs' hf' hrest depth
    | jump n =>
      dsimp only
      rw [hf'.labels.length_eq]
      split
      · exact leave_twins hs' hf' hrest depth
      · have hjump := jump_twins hf' n
        generalize Frame.jump? _ n = x at hjump ⊢
        generalize Frame.jump? _ n = y at hjump ⊢
        cases hjump with
        | none => exact .inr (.stopped hs' .stuck true)
        | some hf => exact .inl ⟨hs', .cons hf hrest, rfl⟩
    | call hp =>
      dsimp only
      obtain ⟨m, m', hm, hm', h⟩ | ⟨e, hm, hm'⟩ := call_twins hs' hf' hrest depth hp
      · rw [hm, hm']
        exact .inl h
      · rw [hm, hm']
        exact .inr (.stopped hs' e true)

/-- **Machines move in step.** -/
theorem step_twins {m m' : Machine} (h : m.Twins same P base m') :
    StepTwins same P base m.step m'.step := by
  obtain ⟨s, frames, _⟩ := m
  obtain ⟨s', frames', depth⟩ := m'
  obtain ⟨hs, hframes, rfl⟩ := h
  dsimp only at hs hframes
  have stuck : StepTwins same P base (.inr (.stopped s .stuck true))
      (.inr (.stopped s' .stuck true)) := .inr (.stopped hs .stuck true)
  unfold step
  cases hframes with
  | nil => exact .inr (.values hs .nil)
  | @cons f g rest rest' hf hrest =>
    -- what a frame does to itself alone
    have goOn {f g : Frame} (h : f.Alike P g) :
        StepTwins same P base (.inl ⟨s, f :: rest, depth⟩) (.inl ⟨s', g :: rest', depth⟩) :=
      .inl ⟨hs, .cons h hrest, rfl⟩
    have hlabels := hf.labels
    dsimp only
    rw [hf.code]
    cases hcode : f.code with
    | nil =>
      generalize f.labels = ls at hlabels ⊢
      generalize g.labels = ks at hlabels ⊢
      cases hlabels with
      | nil => exact leave_twins hs hf hrest depth
      | cons hl hls =>
        exact .inl ⟨hs, .cons { hf with
          labels := hls
          code := hl.after
          stack := List.rel_append hf.stack hl.below } hrest, rfl⟩
    | cons instr after =>
      obtain ⟨i, j, hi, hj, hij⟩ := hs.instances.related hf.owner
      simp only [hi, hj]
      cases instr with
      | block type body =>
        have hentered := enter_twins hij hf type body after none
        dsimp only
        generalize enter i f type body after none = x at hentered ⊢
        generalize enter j g type body after none = y at hentered ⊢
        cases hentered with
        | none => exact stuck
        | some h => exact goOn h
      | loop type body =>
        have hentered := enter_twins hij hf type body after (some (.loop type body))
        dsimp only
        generalize enter i f type body after _ = x at hentered ⊢
        generalize enter j g type body after _ = y at hentered ⊢
        cases hentered with
        | none => exact stuck
        | some h => exact goOn h
      | branch type yes no =>
        have hstack := hf.stack
        have hframe {vs ws : List Value} (h : List.Forall₂ (Value.Alike P) vs ws) :
            Frame.Alike P { f with code := .branch type yes no :: after, stack := vs }
              { g with code := .branch type yes no :: after, stack := ws } :=
          { hf with code := rfl, stack := h }
        dsimp only
        generalize f.stack = vs at hstack ⊢
        generalize g.stack = ws at hstack ⊢
        obtain _ | ⟨⟨c⟩ | _, hstack⟩ := hstack
        case cons.i32 =>
          have hentered := enter_twins hij (hframe hstack) type (if c = 0 then no else yes) after
            none
          dsimp only
          generalize enter i _ type _ after none = x at hentered ⊢
          generalize enter j _ type _ after none = y at hentered ⊢
          cases hentered with
          | none => exact stuck
          | some h => exact goOn h
        all_goals exact stuck
      | basic op =>
        have hstep := step_basic_twins hs hi hj hij hf hrest hcode depth
        simpa only [step, hf.code.trans hcode, hcode, hi, hj] using hstep

theorem run_twins (fuel : Nat) {m m' : Machine} (h : m.Twins same P base m') :
    (run fuel m).Twins same P base (run fuel m') := by
  induction fuel generalizing m m' with
  | zero => exact .stopped h.store .outOfSteps true
  | succ n ih =>
    have hstep := step_twins h
    rw [run, run]
    generalize m.step = x at hstep ⊢
    generalize m'.step = y at hstep ⊢
    cases hstep with
    | inl h => exact ih h
    | inr h => exact h

end Machine

/-- **Calls end alike.** A function called in one store does what its twin does in the other. -/
theorem Store.call_twins (hs : s.Twins same P s' base) {a b : Nat} (hp : P.places .func a b)
    {args args' : List Value} (ha : List.Forall₂ (Value.Alike P) args args') :
    (s.call a args).Twins same P base (s'.call b args') := by
  obtain ⟨x, y, hx, hy, hxy⟩ := hs.functions.related hp
  simp only [Store.call, hx, hy]
  cases hxy with
  | host type f =>
    have hcall := Machine.callHost_twins hs .none f ha
    dsimp only
    generalize Machine.callHost s none f args = r at hcall ⊢
    generalize Machine.callHost s' none f args' = r' at hcall ⊢
    cases hcall with
    | error e => exact .stopped hs e false
    | ok h => exact .values h.1 h.2
  | code type code ho =>
    exact Machine.run_twins Machine.fuel
      ⟨hs, .cons (Machine.frameOf_alike ho type code ha) .nil, rfl⟩

end ScriptHost.Wasm

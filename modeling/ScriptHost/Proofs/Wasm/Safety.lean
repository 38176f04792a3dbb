import ScriptHost.Proofs.Wasm.Instructions

/-!
# Well-typed code does not get stuck

A frame goes on from the stack it has and leaves results of its type behind (`Frame.Goes`), and each
frame below waits for the results of the one above it (`Awaits`). A step keeps this up
(`Machine.step_safe`), so a function that is called with arguments of its type in a sound store ends
with results of its type, traps, exits or runs out of steps, and the store is sound in every case
(`Store.Sound.call`).
-/

namespace ScriptHost.Wasm

/-! ## Frames -/

/-- Blocks that are open in code of a function. A jump to one of them finds the values it takes
along, and behind its end the code goes on with what it leaves. The outermost label, that of the
function itself, belongs to no block. -/
inductive Nested (s : Store) (m : Module) (locals results : List ValType) :
    List Label → List (List ValType) → List ValType → Prop where
  | outermost : Nested s m locals results [] [results] results
  | inside {l : Label} {blocks : List Label} {labels : List (List ValType)}
      {label ends below us : List ValType} (hn : Nested s m locals results blocks labels us)
      (hb : s.Typed l.below below) (ha : l.arity = label.length)
      (htarget : (m.codeContext locals labels results).Leads (.of (label.reverse ++ below))
        l.target us)
      (hafter : (m.codeContext locals labels results).Leads (.of (ends.reverse ++ below))
        l.after us) :
      Nested s m locals results (l :: blocks) (label :: labels) ends

/-- With values of the types `ts` on its stack the frame goes on, and leaves its results behind. -/
inductive Frame.Goes (s : Store) (f : Frame) (ts results : List ValType) : Prop where
  | mk {i : Instance} {locals us : List ValType} {labels : List (List ValType)}
      (hi : s.instances[f.owner]? = some i) (hl : s.Typed f.locals.toList locals)
      (ha : f.arity = results.length) (hn : Nested s i.module locals results f.labels labels us)
      (hc : (i.module.codeContext locals labels results).Leads (.of ts) f.code us)

/-- The first frame goes on with values of these types on top of its stack, each other one with the
results of the one above it. The last leaves values of the types `final`. -/
inductive Awaits (s : Store) (final : List ValType) : List ValType → List Frame → Prop where
  | done : Awaits s final final []
  | frame {awaited ts results : List ValType} {f : Frame} {rest : List Frame}
      (hv : s.Typed f.stack ts) (hf : f.Goes s (awaited.reverse ++ ts) results)
      (hr : Awaits s final results rest) : Awaits s final awaited (f :: rest)

section

variable {s s' : Store} {m : Module} {locals results final ts us : List ValType}
  {blocks : List Label} {labels : List (List ValType)} {f : Frame} {rest : List Frame}

theorem Nested.mono (hn : Nested s m locals results blocks labels us) (h : s.Extends s') :
    Nested s' m locals results blocks labels us := by
  induction hn with
  | outermost => exact .outermost
  | inside _ hb ha htarget hafter ih => exact .inside ih (hb.mono h) ha htarget hafter

/-- The frame goes on in a store that has grown. -/
theorem Nested.goes {i : Instance} (hn : Nested s i.module locals results f.labels labels us)
    (h : s.Extends s') (hi : s.instances[f.owner]? = some i) (hl : s'.Typed f.locals.toList locals)
    (ha : f.arity = results.length)
    (hc : (i.module.codeContext locals labels results).Leads (.of ts) f.code us) :
    f.Goes s' ts results := by
  obtain ⟨j, hj, hm⟩ := h.modules _ _ hi
  have hn := hn.mono h
  rw [← (show j.module = i.module from hm)] at hn hc
  exact ⟨hj, hl, ha, hn, hc⟩

theorem Frame.Goes.mono (hf : f.Goes s ts results) (h : s.Extends s') : f.Goes s' ts results := by
  obtain ⟨hi, hl, ha, hn, hc⟩ := hf
  exact hn.goes h hi (hl.mono h) ha hc

theorem Awaits.mono (hr : Awaits s final ts rest) (h : s.Extends s') :
    Awaits s' final ts rest := by
  induction hr with
  | done => exact .done
  | frame hv hf _ ih => exact .frame (hv.mono h) (hf.mono h) ih

/-- What goes on is known from the code, not from the stack that is there at present. -/
theorem Frame.Goes.withStack (hf : f.Goes s ts results) (vs : List Value) :
    { f with stack := vs }.Goes s ts results := by
  obtain ⟨hi, hl, ha, hn, hc⟩ := hf
  exact ⟨hi, hl, ha, hn, hc⟩

/-- A jump leads to a block that is open, or out of the function. -/
theorem Nested.jump (hn : Nested s m locals results blocks labels us) {n : Nat}
    {label : List ValType} (hl : labels[n]? = some label) :
    (n = blocks.length ∧ label = results) ∨
      n ≠ blocks.length ∧ ∃ l outer labels' below us',
        blocks.drop n = l :: outer ∧ Nested s m locals results outer labels' us' ∧
        s.Typed l.below below ∧ l.arity = label.length ∧
        (m.codeContext locals labels' results).Leads (.of (label.reverse ++ below))
          l.target us' := by
  induction hn generalizing n with
  | outermost =>
    obtain ⟨rfl, rfl⟩ : n = 0 ∧ results = label := by simpa [List.getElem?_singleton] using hl
    exact .inl ⟨rfl, rfl⟩
  | inside hn hb ha htarget _ ih =>
    cases n with
    | zero =>
      cases hl
      exact .inr ⟨nofun, _, _, _, _, _, rfl, hn, hb, ha, htarget⟩
    | succ n =>
      obtain ⟨rfl, h⟩ | ⟨hne, h⟩ := ih hl
      · exact .inl ⟨rfl, h⟩
      · exact .inr ⟨fun h => hne (Nat.succ.inj h), h⟩

end

/-! ## Calls of the host -/

/-- Called at its type, a function of the host gives results of its type, or stops for a reason of
its own. -/
theorem Host.call_safe {s : Store} (h : Host) (memory : Option Memory) {f : HostFunction}
    {t : FuncType} (hf : f.hasType t) {args : List Value} (ha : s.Typed args t.params) :
    (∃ e, h.call memory f args = .error e ∧ e ≠ .stuck) ∨
      ∃ h' memory' vs, h.call memory f args = .ok (h', memory', vs) ∧ s.Typed vs t.results := by
  cases f with
  | print | printError | setMessage =>
    obtain rfl := of_decide_eq_true hf
    obtain ⟨ptr, _, rfl, hlen⟩ := ha.of_i32
    obtain ⟨len, _, rfl, hnil⟩ := hlen.of_i32
    cases hnil
    unfold Host.call
    dsimp only
    split
    all_goals exact .inr ⟨_, _, _, rfl, .nil⟩
  | handleLength =>
    obtain rfl := of_decide_eq_true hf
    obtain ⟨id, _, rfl, hnil⟩ := ha.of_i32
    cases hnil
    exact .inr ⟨_, _, _, rfl, .cons (.i32 _) .nil⟩
  | handleRead =>
    obtain rfl := of_decide_eq_true hf
    obtain ⟨id, ptr, len, _, rfl, hnil⟩ := ha.of_three
    cases hnil
    exact .inr ⟨_, _, _, rfl, .cons (.i32 _) .nil⟩
  | selectionLength =>
    obtain rfl := of_decide_eq_true hf
    cases ha
    exact .inr ⟨_, _, _, rfl, .cons (.i32 _) .nil⟩
  | selectionGet =>
    obtain rfl := of_decide_eq_true hf
    obtain ⟨i, _, rfl, hnil⟩ := ha.of_i32
    cases hnil
    exact .inr ⟨_, _, _, rfl, .cons (.i64 _) .nil⟩
  | exit =>
    rw [show t.params = [.i32] from of_decide_eq_true hf] at ha
    obtain ⟨status, _, rfl, hnil⟩ := ha.of_i32
    cases hnil
    unfold Host.call
    dsimp only
    split
    · exact .inl ⟨_, rfl, Stop.noConfusion⟩
    · split
      · exact .inl ⟨_, rfl, Stop.noConfusion⟩
      · exact .inl ⟨_, rfl, Stop.noConfusion⟩
  | nothingThere zeros =>
    rw [show t.results = [.i32] from of_decide_eq_true hf]
    unfold Host.call
    dsimp only
    split
    · exact .inl ⟨_, rfl, Stop.noConfusion⟩
    · split
      · exact .inr ⟨_, _, _, rfl, .cons (.i32 _) .nil⟩
      · exact .inr ⟨_, _, _, rfl, .cons (.i32 _) .nil⟩

namespace Machine

theorem callHost_safe {s : Store} (hs : s.Sound) (caller : Option Nat) {f : HostFunction}
    {t : FuncType} (hf : f.hasType t) {args : List Value} (ha : s.Typed args t.params) :
    (∃ e, callHost s caller f args = .error e ∧ e ≠ .stuck) ∨
      ∃ s' vs, callHost s caller f args = .ok (s', vs) ∧ s.Becomes s' ∧ s'.Typed vs t.results := by
  unfold callHost
  dsimp only
  obtain ⟨e, he, hne⟩ | ⟨host, memory, vs, he, hvs⟩ := Host.call_safe s.host
    ((caller.bind s.exportedMemory?).bind (s.memories[·]?)) hf ha
  · rw [he]
    exact .inl ⟨e, rfl, hne⟩
  · rw [he]
    have hb := hs.setHost host
    refine .inr ?_
    dsimp only
    split
    · rename_i a m hcaller
      rw [hcaller] at he
      obtain ⟨before, hbefore, hg⟩ := (Host.call_cases he).2 _ rfl
      have hb := hb.trans (hb.sound.setMemory hbefore hg)
      exact ⟨_, vs, rfl, hb, hvs.mono hb.grown⟩
    · exact ⟨_, vs, rfl, hb, hvs.mono hb.grown⟩

end Machine

/-! ## Steps -/

/-- A run has ended with values of these types, or has stopped for a reason of its own. -/
inductive Ended.Safe (s : Store) (results : List ValType) : Ended → Prop where
  | values {s' : Store} {vs : List Value} (hs : s.Becomes s') (hv : s'.Typed vs results) :
      Safe s results (.values s' vs)
  | stopped {s' : Store} {reason : Stop} {inCode : Bool} (hs : s.Becomes s')
      (hr : reason ≠ .stuck) : Safe s results (.stopped s' reason inCode)

theorem Ended.Safe.trans {s s' : Store} {results : List ValType} {ended : Ended}
    (h : s.Becomes s') (he : ended.Safe s' results) : ended.Safe s results := by
  cases he with
  | values hs hv => exact .values (h.trans hs) hv
  | stopped hs hr => exact .stopped (h.trans hs) hr

theorem Ended.Safe.reason_ne_stuck {s s' : Store} {results : List ValType} {reason : Stop}
    {inCode : Bool} (h : (Ended.stopped s' reason inCode).Safe s results) : reason ≠ .stuck := by
  cases h with
  | stopped _ hr => exact hr

namespace Machine

variable {s s' : Store} {i : Instance} {f : Frame} {rest : List Frame}
  {final results ts below : List ValType} {depth : Nat}

/-- A machine whose frames lead to values of the types `final`, or a safe end. -/
inductive Safe (s : Store) (final : List ValType) : Machine ⊕ Ended → Prop where
  | goes {m : Machine} (hs : s.Becomes m.store) (hr : Awaits m.store final [] m.frames) :
      Safe s final (.inl m)
  | ends {ended : Ended} (he : ended.Safe s final) : Safe s final (.inr ended)

theorem leave_safe (hs : s.Becomes s') (hv : s'.Typed f.stack (results.reverse ++ below))
    (ha : f.arity = results.length) (hr : Awaits s' final results rest) (depth : Nat) :
    Safe s final (leave s' f rest depth) := by
  have htaken : s'.Typed (f.stack.take f.arity) results.reverse := by
    rw [ha, ← List.length_reverse]
    exact List.forall₂_take_append _ _ _ hv
  cases hr with
  | done =>
    have hvs := List.rel_reverse htaken
    rw [List.reverse_reverse] at hvs
    exact .ends (.values hs hvs)
  | frame hv hf hr =>
    exact .goes hs (.frame (List.rel_append htaken hv) (hf.withStack _) hr)

/-- Code begins with its arguments and with zeros. -/
theorem frameOf_goes {t : FuncType} {owner n : Nat} {code : Code} {args : List Value}
    (hi : s.instances[owner]? = some i) (ht : i.module.types[n]? = some t)
    (hc : i.module.context.isFunction n code) (ha : s.Typed args t.params) :
    (frameOf t owner code args).Goes s [] t.results := by
  have hzeros : s.Typed (code.locals.flatMap fun run => List.replicate run.1 (Value.zero run.2))
      (code.locals.flatMap fun run => List.replicate run.1 run.2) := by
    induction code.locals with
    | nil => exact .nil
    | cons run runs ih =>
      refine List.rel_append ?_ ih
      dsimp only
      rw [← List.map_replicate, List.forall₂_map_left_iff, List.forall₂_same]
      exact fun t _ => .zero s t
  rw [Context.isFunction, show i.module.context.module.types[n]? = some t from ht] at hc
  dsimp only at hc
  split at hc
  · split at hc
    · rename_i o ho
      refine ⟨hi, ?_, rfl, .outermost, o, ho, hc⟩
      exact List.rel_append ha hzeros
    · cases hc
  · cases hc

/-- A call begins, or has been answered by the host, or stops for a reason of its own. -/
theorem call_safe (hs : s.Sound) {a : Nat} {g : Function} (hg : s.functions[a]? = some g)
    (hv : s.Typed f.stack (g.type.params.reverse ++ below))
    (hf : f.Goes s (g.type.results.reverse ++ below) results)
    (hr : Awaits s final results rest) (depth : Nat) :
    (∃ e, call s f rest depth a = .error (s, e) ∧ e ≠ .stuck) ∨
      ∃ m, call s f rest depth a = .ok m ∧ s.Becomes m.store ∧
        Awaits m.store final [] m.frames := by
  have hargs : s.Typed (f.stack.take g.type.params.length).reverse g.type.params := by
    rw [← List.reverse_reverse g.type.params]
    refine List.rel_reverse ?_
    rw [List.reverse_reverse, ← List.length_reverse]
    exact List.forall₂_take_append _ _ _ hv
  have hdrop : s.Typed (f.stack.drop g.type.params.length) below := by
    rw [← List.length_reverse]
    exact List.forall₂_drop_append _ _ _ hv
  unfold call
  rw [hg]
  dsimp only
  cases hs.functions g (Array.mem_of_getElem? hg) with
  | @host t h hh =>
    dsimp only
    obtain ⟨e, he, hne⟩ | ⟨s', vs, he, hb, hvs⟩ := callHost_safe hs (some f.owner) hh hargs
    · rw [he]
      exact .inl ⟨e, rfl, hne⟩
    · rw [he]
      refine .inr ⟨_, rfl, hb, .frame ?_ ((hf.mono hb.grown).withStack _) (hr.mono hb.grown)⟩
      exact List.rel_append (List.rel_reverse hvs) (hdrop.mono hb.grown)
  | @code t owner n code i hi ht hc =>
    dsimp only
    by_cases hd : depth < maxDepth
    · rw [if_pos hd]
      refine .inr ⟨_, rfl, hs.becomes_self, .frame .nil (frameOf_goes hi ht hc hargs) ?_⟩
      exact .frame hdrop (hf.withStack _) hr
    · rw [if_neg hd]
      exact .inl ⟨_, rfl, nofun⟩

/-- A block is entered with its parameters on its stack, and its label says how it is left. -/
theorem enter_goes (again : Option Instr) {locals us : List ValType} {labels : List (List ValType)}
    (hi : s.instances[f.owner]? = some i) (hl : s.Typed f.locals.toList locals)
    (ha : f.arity = results.length) (hn : Nested s i.module locals results f.labels labels us)
    {type : BlockType} {t : FuncType}
    (ht : (i.module.codeContext locals labels results).blockType? type = some t)
    (hv : s.Typed f.stack (t.params.reverse ++ below)) {body after : List Instr}
    (hbody : (i.module.codeContext locals labels results).LeadsInside
      (if again.isSome then t.params else t.results) t body)
    (hafter : (i.module.codeContext locals labels results).Leads (.of (t.results.reverse ++ below))
      after us)
    (hagain : ∀ loop ∈ again, (i.module.codeContext locals labels results).Leads
      (.of (t.params.reverse ++ below)) (loop :: after) us)
    (hr : Awaits s final results rest) :
    ∃ f', enter i f type body after again = some f' ∧ Awaits s final [] (f' :: rest) := by
  have htake : s.Typed (f.stack.take t.params.length) t.params.reverse := by
    rw [← List.length_reverse]
    exact List.forall₂_take_append _ _ _ hv
  have hdrop : s.Typed (f.stack.drop t.params.length) below := by
    rw [← List.length_reverse]
    exact List.forall₂_drop_append _ _ _ hv
  have hfound (g : FuncType → Frame) :
      ((i.module.codeContext locals labels results).blockType? type).map g = some (g t) := by
    rw [ht, Option.map_some]
  cases again with
  | none =>
    have henter := hfound fun t => { f with
      labels := ⟨t.results.length, after, after, f.stack.drop t.params.length⟩ :: f.labels
      code := body
      stack := f.stack.take t.params.length }
    refine ⟨_, Eq.trans ?_ henter, .frame htake ?_ hr⟩
    · cases type <;> rfl
    · exact ⟨hi, hl, ha, .inside hn hdrop rfl hafter hafter, hbody⟩
  | some loop =>
    have henter := hfound fun t => { f with
      labels := ⟨t.params.length, loop :: after, after, f.stack.drop t.params.length⟩ :: f.labels
      code := body
      stack := f.stack.take t.params.length }
    refine ⟨_, Eq.trans ?_ henter, .frame htake ?_ hr⟩
    · cases type <;> rfl
    · exact ⟨hi, hl, ha, .inside hn hdrop rfl (hagain loop rfl) hafter, hbody⟩

/-- An instruction without a body is done, and the machine goes on where it says. -/
theorem step_basic_safe (hs : s.Sound) {op : Basic} {after : List Instr}
    (hf : f.code = .basic op :: after) {locals us : List ValType}
    {labels : List (List ValType)} (hi : s.instances[f.owner]? = some i)
    (hl : s.Typed f.locals.toList locals)
    (ha : f.arity = results.length) (hn : Nested s i.module locals results f.labels labels us)
    (hv : s.Typed f.stack ts) {o : Operands}
    (hop : (i.module.codeContext locals labels results).checkBasic (.of ts) op = some o)
    (hafter : (i.module.codeContext locals labels results).Leads o after us)
    (hr : Awaits s final results rest) (depth : Nat) :
    Safe s final (step ⟨s, f :: rest, depth⟩) := by
  obtain ⟨owner, vars, arity, blocks, code, stack⟩ := f
  obtain rfl : code = .basic op :: after := hf
  have he := effect_safe (f := ⟨owner, vars, arity, blocks, after, stack⟩) hs hi hl hv hop
  unfold step
  dsimp only
  rw [show s.instances[owner]? = some i from hi]
  dsimp only
  generalize effect s i ⟨owner, vars, arity, blocks, after, stack⟩ op = e at he
  cases he with
  | trap t => exact .ends (.stopped hs.becomes_self nofun)
  | @ok s' vars stack ts x hb hl hv hx =>
    have hr := hr.mono hb.grown
    have goes {ts : List ValType} (ho : o = .of ts) :
        Frame.Goes s' ⟨owner, vars, arity, blocks, after, stack⟩ ts results :=
      hn.goes (f := ⟨owner, vars, arity, blocks, after, stack⟩) hb.grown hi hl ha (ho ▸ hafter)
    cases hx with
    | advance h => exact .goes hb (.frame hv (goes h) hr)
    | leave h =>
      subst h
      exact leave_safe (f := ⟨owner, vars, arity, blocks, after, stack⟩) hb hv ha hr depth
    | @jump n label below hus h =>
      subst h
      dsimp only
      obtain ⟨rfl, rfl⟩ | ⟨hne, l, outer, labels', below', us', hdrop, hn, hbelow, hlabel,
        htarget⟩ := hn.jump hus
      · rw [if_pos rfl]
        exact leave_safe (f := ⟨owner, vars, arity, blocks, after, stack⟩) hb hv ha hr depth
      · have htaken : s'.Typed (stack.take l.arity) label.reverse := by
          rw [hlabel, ← List.length_reverse]
          exact List.forall₂_take_append _ _ _ hv
        have hstack := List.rel_append htaken (hbelow.mono hb.grown)
        rw [if_neg hne, Frame.jump?, hdrop]
        exact .goes hb (.frame hstack (hn.goes hb.grown hi hl ha htarget) hr)
    | @call a g below hg h ho =>
      subst h
      dsimp only
      obtain ⟨e, hcall, hne⟩ | ⟨m, hcall, hm, hawaits⟩ :=
        call_safe hb.sound hg hv (goes ho) hr depth
      · rw [hcall]
        exact .ends (.stopped hb hne)
      · rw [hcall]
        exact .goes (hb.trans hm) hawaits

/-- **A step is safe.** A machine whose frames lead to values of some types goes on to one whose
frames do, or ends safely. -/
theorem step_safe {m : Machine} (hs : m.store.Sound) (hm : Awaits m.store final [] m.frames) :
    Safe m.store final m.step := by
  obtain ⟨s, frames, depth⟩ := m
  have hself := hs.becomes_self
  cases hm with
  | done => exact .ends (.values hself .nil)
  | @frame _ ts results f rest hv hf hr =>
    obtain ⟨owner, vars, arity, blocks, code, stack⟩ := f
    obtain @⟨i, locals, us, labels, hi, hl, ha, hn, hc⟩ := hf
    cases code with
    | nil =>
      have hts := Context.leads_nil.1 hc
      cases hn with
      | outermost =>
        have hall : s.Typed stack (results.reverse ++ []) := by
          rw [List.append_nil, ← hts]
          exact hv
        exact leave_safe hself hall ha hr depth
      | inside hn hb _ _ hafter =>
        refine .goes hself (.frame (List.rel_append hv hb) ⟨hi, hl, ha, hn, ?_⟩ hr)
        rw [← hts] at hafter
        exact hafter
    | cons instr after =>
      obtain ⟨o, hcheck, hafter⟩ := Context.leads_cons.1 hc
      have hi' : s.instances[owner]? = some i := hi
      cases instr with
      | basic op => exact step_basic_safe hs rfl hi hl ha hn hv hcheck hafter hr depth
      | block type body =>
        obtain ⟨t, ht, below, rfl, hbody, rfl⟩ := Context.check_block.1 hcheck
        obtain ⟨f', hf', hr'⟩ := enter_goes none hi hl ha hn ht hv hbody hafter nofun hr
        simp only [step, hi', hf']
        exact .goes hself hr'
      | loop type body =>
        obtain ⟨t, ht, below, rfl, hbody, rfl⟩ := Context.check_loop.1 hcheck
        obtain ⟨f', hf', hr'⟩ := enter_goes (some (.loop type body)) hi hl ha hn ht hv hbody hafter
          (fun loop hloop => Option.mem_some.1 hloop ▸ hc) hr
        simp only [step, hi', hf']
        exact .goes hself hr'
      | branch type yes no =>
        obtain ⟨ts, rfl, hyes, hno⟩ := Context.check_branch hcheck
        obtain ⟨c, vs, hstack, hvs⟩ := hv.of_i32
        obtain rfl : stack = .i32 c :: vs := hstack
        have hchosen : (i.module.codeContext locals labels results).check (.of ts)
            (.block type (if c = 0 then no else yes)) = some o := by
          split
          · exact hno
          · exact hyes
        obtain ⟨t, ht, below, rfl, hbody, rfl⟩ := Context.check_block.1 hchosen
        obtain ⟨f', hf', hr'⟩ := enter_goes (f := ⟨owner, vars, arity, blocks, _, vs⟩) none hi hl ha
          hn ht hvs hbody hafter nofun hr
        simp only [step, hi']
        rw [hf']
        exact .goes hself hr'

/-- **A run is safe.** -/
theorem run_safe {m : Machine} (hs : m.store.Sound) (hm : Awaits m.store final [] m.frames)
    (fuel : Nat) : (run fuel m).Safe m.store final := by
  induction fuel generalizing m with
  | zero => exact .stopped hs.becomes_self nofun
  | succ n ih =>
    have h := step_safe hs hm
    rw [run]
    generalize m.step = next at h
    cases h with
    | goes hb hr => exact .trans hb (ih hb.sound hr)
    | ends he => exact he

end Machine

/-- **Calls are safe.** A function of a sound store that is called at its type is never stuck, and
what it gives back is of its type. -/
theorem Store.Sound.call {s : Store} (hs : s.Sound) {a : Nat} {f : Function}
    (hf : s.functions[a]? = some f) {args : List Value} (ha : s.Typed args f.type.params) :
    (s.call a args).Safe s f.type.results := by
  unfold Store.call
  rw [hf]
  cases hs.functions f (Array.mem_of_getElem? hf) with
  | @host t h hh =>
    dsimp only
    obtain ⟨e, he, hne⟩ | ⟨s', vs, he, hb, hvs⟩ := Machine.callHost_safe hs none hh ha
    · rw [he]
      exact .stopped hs.becomes_self hne
    · rw [he]
      exact .values hb hvs
  | code hi ht hc =>
    exact Machine.run_safe (m := ⟨s, _, 1⟩) hs
      (.frame .nil (Machine.frameOf_goes hi ht hc ha) .done) Machine.fuel

end ScriptHost.Wasm

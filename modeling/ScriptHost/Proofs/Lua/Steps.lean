import ScriptHost.Proofs.Lua.Frames

/-!
# Steps of scripts on renamed stores

A step of a call has the same effect on stores that differ by a renaming
(`Machine.effect_renamed`).
-/

namespace ScriptHost.Lua.Machine

variable {ρ : Renaming} {s t : Store}

/-- Both steps lead to the same. -/
inductive Effect.Renamed (ρ : Renaming) : Effect → Effect → Prop where
  | next {s t : Store} {a b : Activation} (h : s.Renamed ρ t) (ha : b = a.rename ρ) :
      Renamed ρ (.next s a) (.next t b)
  | call {s t : Store} {a b : Activation} {f g : Value} {vs ws : List Value} (h : s.Renamed ρ t)
      (ha : b = a.rename ρ) (hf : g = f.rename ρ) (hv : ws = vs.map (Value.rename ρ)) :
      Renamed ρ (.call s a f vs) (.call t b g ws)
  | replace {s t : Store} {f g : Value} {vs ws : List Value} (h : s.Renamed ρ t)
      (hf : g = f.rename ρ) (hv : ws = vs.map (Value.rename ρ)) :
      Renamed ρ (.replace s f vs) (.replace t g ws)
  | fail {s t : Store} {a b : Activation} {e f : Fault} (h : s.Renamed ρ t)
      (ha : b = a.rename ρ) (he : f = e.rename ρ) : Renamed ρ (.fail s a e) (.fail t b f)
  | leave {s t : Store} {vs ws : List Value} (h : s.Renamed ρ t)
      (hv : ws = vs.map (Value.rename ρ)) : Renamed ρ (.leave s vs) (.leave t ws)

theorem Effect.Renamed.ite {c : Prop} [Decidable c] {e e' f f' : Effect}
    (h : c → e.Renamed ρ f) (h' : ¬c → e'.Renamed ρ f') :
    (if c then e else e').Renamed ρ (if c then f else f') :=
  ite_related h h'

/-! ## Slots -/

theorem slotValue_renamed (h : s.Renamed ρ t) (a : Activation) (slot : Nat) :
    slotValue t (a.rename ρ) slot = (slotValue s a slot).rename ρ := by
  rw [slotValue, slotValue, Activation.cellOf_rename, h.cell]

theorem setSlot_renamed (h : s.Renamed ρ t) (a : Activation) (slot : Nat) (v : Value) :
    (setSlot s a slot v).Renamed ρ (setSlot t (a.rename ρ) slot (v.rename ρ)) := by
  rw [setSlot, setSlot, Activation.cellOf_rename]
  exact h.setCell _ v

theorem setAt_cells (slots : Array Nat) (i c : Nat) :
    Store.setAt (slots.map ρ.cells) i (ρ.cells c) = (Store.setAt slots i c).map ρ.cells := by
  have hzero : ρ.cells 0 = 0 := ρ.cells_fixed 0 (by decide)
  rw [Store.setAt, Store.setAt, Array.size_map]
  split
  · rw [Array.map_setIfInBounds]
  · simp [hzero]

theorem declare_renamed (h : s.Renamed ρ t) (a : Activation) (slot : Nat) (v : Value) :
    (declare s a slot v).1.Renamed ρ (declare t (a.rename ρ) slot (v.rename ρ)).1 :=
  h.newCell v

theorem declare_activation (h : s.Renamed ρ t) (a : Activation) (slot : Nat) (v : Value) :
    (declare t (a.rename ρ) slot (v.rename ρ)).2 = (declare s a slot v).2.rename ρ := by
  have hslots := setAt_cells (ρ := ρ) a.slots slot (s.newCell v).2
  rw [← h.newCell_address] at hslots
  simp only [declare, Activation.rename] at hslots ⊢
  rw [hslots]

theorem declared_renamed (h : s.Renamed ρ t) (a : Activation) (slot : Nat) (v : Value) :
    (Effect.next (declare s a slot v).1 (declare s a slot v).2).Renamed ρ
      (.next (declare t (a.rename ρ) slot (v.rename ρ)).1
        (declare t (a.rename ρ) slot (v.rename ρ)).2) :=
  .next (declare_renamed h a slot v) (declare_activation h a slot v)

theorem captured_renamed (h : s.Renamed ρ t) (a : Activation) (c : Capture) :
    captured t (a.rename ρ) c = ρ.cells (captured s a c) := by
  cases c with
  | ofLocal slot => exact a.cellOf_rename slot
  | ofUpvalue i =>
    have hc : (t.closures.getD (a.rename ρ).closure default).upvalues =
        (s.closures.getD a.closure default).upvalues.map ρ.cells :=
      congrArg Closure.upvalues (h.closure a.closure)
    rw [captured, captured, hc, getD_cells]

theorem upvalue_renamed (h : s.Renamed ρ t) (a : Activation) (c : Capture) :
    t.cell (captured t (a.rename ρ) c) = (s.cell (captured s a c)).rename ρ := by
  rw [captured_renamed h, h.cell]

theorem setUpvalue_renamed (h : s.Renamed ρ t) (a : Activation) (c : Capture) (v : Value) :
    (s.setCell (captured s a c) v).Renamed ρ
      (t.setCell (captured t (a.rename ρ) c) (v.rename ρ)) := by
  rw [captured_renamed h]
  exact h.setCell _ v

/-! ## Operations -/

theorem operated_renamed (h : s.Renamed ρ t) (a : Activation) {o o' : Operated}
    (ho : o' = o.rename ρ) : (operated s a o).Renamed ρ (operated t (a.rename ρ) o') := by
  subst ho
  cases o with
  | value v => exact .next h (a.push_rename v)
  | call f args => exact .call h rfl rfl rfl
  | fault e => exact .fail h rfl rfl

theorem found_renamed (h : s.Renamed ρ t) (a : Activation) (origin : Option Origin)
    (first : Value) {push other : Activation → Value → Activation}
    (hp : ∀ (a : Activation) (v : Value),
      other (a.rename ρ) (v.rename ρ) = (push a v).rename ρ) {o o' : Store.Found}
    (ho : o' = o.rename ρ) :
    (found s a origin first push o).Renamed ρ
      (found t (a.rename ρ) origin (first.rename ρ) other o') := by
  subst ho
  cases o with
  | value v => exact .next h (hp a v)
  | call f args => exact .call h rfl rfl rfl
  | noFields object =>
    refine .fail h rfl ?_
    rw [Value.rawEquals_rename, h.cannot]
    rfl
  | loop => exact .fail h rfl rfl

theorem compared_renamed (h : s.Renamed ρ t) (op : Comparison) (x y : Value) :
    compared t op (x.rename ρ) (y.rename ρ) = (compared s op x y).rename ρ := by
  cases op with
  | eq => exact h.equal x y
  | ne =>
    simp only [compared, h.equal]
    cases s.equal x y with
    | value v => simp [Operated.rename]
    | _ => rfl
  | lt => exact h.ordered false x y
  | le => exact h.ordered true x y
  | gt => exact h.ordered false y x
  | ge => exact h.ordered true y x

/-! ## Tables -/

theorem assigned_renamed (h : s.Renamed ρ t) (a : Activation) (origin : Option Origin)
    (object key v : Value) {o o' : Store.Assigned} (ho : o' = o.rename ρ) :
    (assigned s a origin object key v o).Renamed ρ
      (assigned t (a.rename ρ) origin (object.rename ρ) (key.rename ρ) (v.rename ρ) o') := by
  subst ho
  cases o with
  | into address => exact .next (h.modifyTable address fun x => x.set_rename key v) rfl
  | call f args => exact .call h rfl rfl rfl
  | noFields other =>
    refine .fail h rfl ?_
    rw [Value.rawEquals_rename, h.cannot]
    rfl
  | badKey reason => exact .fail h rfl rfl
  | loop => exact .fail h rfl rfl

theorem setIndex_renamed (h : s.Renamed ρ t) (a : Activation) (origin : Option Origin)
    (v : Value) {stack stack' : List Value} (hs : stack' = stack.map (Value.rename ρ)) :
    (setIndex s a origin v stack).Renamed ρ
      (setIndex t (a.rename ρ) origin (v.rename ρ) stack') := by
  subst hs
  obtain _ | ⟨key, _ | ⟨object, stack⟩⟩ := stack
  · exact .leave h rfl
  · exact .leave h rfl
  · exact assigned_renamed h a origin object key v (h.assign key v object _)

theorem setField_renamed (h : s.Renamed ρ t) (a : Activation) (key v : Value)
    {stack stack' : List Value} (hs : stack' = stack.map (Value.rename ρ)) :
    (setField s a key v stack).Renamed ρ
      (setField t (a.rename ρ) (key.rename ρ) (v.rename ρ) stack') := by
  subst hs
  obtain _ | ⟨object, stack⟩ := stack
  · exact .leave h rfl
  · cases object with
    | table address =>
      simp only [List.map_cons, Value.rename_table, setField, Store.badKey?_rename]
      split
      · exact .fail h rfl rfl
      · exact .next (h.modifyTable address fun x => x.set_rename key v) rfl
    | _ => exact .leave h rfl

theorem putItem_rename (x : Table) (v : Value) (i : Nat) :
    putItem (x.rename ρ) (v.rename ρ) i = (putItem x v i).rename ρ := by
  rw [putItem, putItem, Table.items_rename, Array.size_map]
  split
  · simp [Table.rename]
  · exact x.set_rename (.ofNat i) v

theorem putItems_rename (x : Table) (values : List Value) (start : Nat) :
    ((values.map (Value.rename ρ)).zipIdx start).foldl (fun x p => putItem x p.1 p.2)
        (x.rename ρ) =
      ((values.zipIdx start).foldl (fun x p => putItem x p.1 p.2) x).rename ρ := by
  rw [List.zipIdx_map, List.foldl_map]
  exact List.foldl_hom (Table.rename ρ) fun x p => putItem_rename x p.1 p.2

theorem setItems_renamed (h : s.Renamed ρ t) {a b : Activation} (ha : b = a.rename ρ)
    (start : Nat) {values values' : List Value} (hv : values' = values.map (Value.rename ρ)) :
    (setItems s a start values).Renamed ρ (setItems t b start values') := by
  subst ha hv
  obtain ⟨closure, prototype, pc, slots, _ | ⟨object, stack⟩, many, arguments, guarded, raising,
    isTail⟩ := a
  · exact .leave h rfl
  · cases object with
    | table address =>
      exact .next (h.modifyTable address fun x => putItems_rename x values (start + 1)) rfl
    | _ => exact .leave h rfl

/-! ## Functions -/

theorem closureOf_renamed (h : s.Renamed ρ t) (a : Activation) (i : Nat) :
    closureOf t (a.rename ρ) i = (closureOf s a i).rename ρ := by
  have hc : captured t (a.rename ρ) = ρ.cells ∘ captured s a := funext (captured_renamed h a)
  simp only [closureOf, Closure.rename, List.map_toArray, List.map_map, hc]
  rfl

theorem pushClosure_renamed (h : s.Renamed ρ t) (a : Activation) (i : Nat) :
    (Effect.next (s.newClosure (closureOf s a i)).1
        (a.push (s.newClosure (closureOf s a i)).2)).Renamed ρ
      (.next (t.newClosure (closureOf t (a.rename ρ) i)).1
        ((a.rename ρ).push (t.newClosure (closureOf t (a.rename ρ) i)).2)) := by
  rw [closureOf_renamed h]
  refine .next (h.newClosure _) ?_
  rw [h.newClosure_address, Activation.push_rename]

theorem pushTable_renamed (h : s.Renamed ρ t) (a : Activation) :
    (Effect.next (s.newTable {}).1 (a.push (s.newTable {}).2)).Renamed ρ
      (.next (t.newTable {}).1 ((a.rename ρ).push (t.newTable {}).2)) := by
  have hs := h.newTable {}
  have ht := h.newTable_address {}
  rw [Table.rename_empty] at hs ht
  refine .next hs ?_
  rw [ht, Activation.push_rename]

theorem callTop_renamed (h : s.Renamed ρ t) {a b : Activation} (ha : b = a.rename ρ)
    {args args' : List Value} (hv : args' = args.map (Value.rename ρ)) :
    (callTop s a args).Renamed ρ (callTop t b args') := by
  subst ha hv
  obtain ⟨closure, prototype, pc, slots, _ | ⟨f, stack⟩, many, arguments, guarded, raising,
    isTail⟩ := a
  · exact .leave h rfl
  · exact .call h rfl rfl rfl

theorem callLast_renamed (h : s.Renamed ρ t) {a b : Activation} (ha : b = a.rename ρ)
    {args args' : List Value} (hv : args' = args.map (Value.rename ρ)) :
    (callLast s a args).Renamed ρ (callLast t b args') := by
  subst ha hv
  obtain ⟨closure, prototype, pc, slots, _ | ⟨f, stack⟩, many, arguments, guarded, raising,
    isTail⟩ := a
  · exact .leave h rfl
  · cases f with
    | closure address => exact .replace h rfl rfl
    | _ => exact .call h rfl rfl rfl

theorem callSlot_renamed (h : s.Renamed ρ t) (a : Activation) (slot : Nat) :
    (Effect.call s a (slotValue s a slot)
        [slotValue s a (slot + 1), slotValue s a (slot + 2)]).Renamed ρ
      (.call t (a.rename ρ) (slotValue t (a.rename ρ) slot)
        [slotValue t (a.rename ρ) (slot + 1), slotValue t (a.rename ρ) (slot + 2)]) := by
  rw [slotValue_renamed h, slotValue_renamed h, slotValue_renamed h]
  exact .call h rfl rfl rfl

/-- What is closed first, if anything is, comes before what else a step leads to. -/
theorem closing_renamed (h : s.Renamed ρ t) (a : Activation) (level : Nat) {e f : Effect}
    (he : e.Renamed ρ f) :
    ((closing? s a level).getD e).Renamed ρ ((closing? t (a.rename ρ) level).getD f) := by
  obtain ⟨closure, prototype, pc, slots, stack, many, arguments, _ | ⟨slot, rest⟩, raising,
    isTail⟩ := a
  · exact he
  · have hv := slotValue_renamed h
      ⟨closure, prototype, pc, slots, stack, many, arguments, slot :: rest, raising, isTail⟩ slot
    unfold closing?
    dsimp only [Activation.rename] at hv ⊢
    rw [hv, h.event]
    split
    · exact .call h rfl rfl rfl
    · exact he

theorem guardSlot_renamed (h : s.Renamed ρ t) (a : Activation) (slot : Nat) (name : Bytes) :
    (guardSlot s a slot name).Renamed ρ (guardSlot t (a.rename ρ) slot name) := by
  rw [guardSlot, guardSlot, slotValue_renamed h, Value.truthy_rename, h.event,
    Value.isNil_rename]
  refine .ite (fun _ => .next h rfl) fun _ => ?_
  exact .ite (fun _ => .fail h rfl rfl) fun _ => .next h rfl

/-! ## Loops -/

theorem badLoop_renamed (h : s.Renamed ρ t) (what : Bytes) (v : Value) :
    badLoop t what (v.rename ρ) = (badLoop s what v).rename ρ := by
  rw [badLoop, badLoop, h.typeName]
  rfl

theorem beginRound_renamed (h : s.Renamed ρ t) (a : Activation) (slot : Nat) (v : Value)
    (offset : Int) :
    (beginRound s a slot v offset).Renamed ρ
      (beginRound t (a.rename ρ) slot (v.rename ρ) offset) := by
  refine .next (declare_renamed h a (slot + 3) v) ?_
  exact congrArg (Activation.jump · offset) (declare_activation h a (slot + 3) v)

theorem loopLimit_rename (first step : Int64) (limit : Value) :
    loopLimit first step (limit.rename ρ) = loopLimit first step limit := by
  rw [loopLimit, loopLimit, Value.number?_rename]

theorem prepareInts_renamed (h : s.Renamed ρ t) (a : Activation) (slot : Nat) (offset : Int)
    (first step : Int64) (limit : Value) :
    (prepareInts s a slot offset first step limit).Renamed ρ
      (prepareInts t (a.rename ρ) slot offset first step (limit.rename ρ)) := by
  rw [prepareInts, prepareInts, loopLimit_rename, badLoop_renamed h]
  refine .ite (fun _ => .fail h rfl rfl) fun _ => ?_
  split
  · exact .fail h rfl rfl
  · exact .next h rfl
  · exact beginRound_renamed (setSlot_renamed h a (slot + 1) (.int _)) a slot (.int first) 0

theorem prepareFloats_renamed (h : s.Renamed ρ t) (a : Activation) (slot : Nat) (offset : Int)
    (first limit step : Float) :
    (prepareFloats s a slot offset first limit step).Renamed ρ
      (prepareFloats t (a.rename ρ) slot offset first limit step) := by
  refine .ite (fun _ => .fail h rfl rfl) fun _ => ?_
  refine .ite (fun _ => ?_) fun _ => .next h rfl
  refine beginRound_renamed ?_ a slot (.float first) 0
  refine setSlot_renamed ?_ a (slot + 2) (.float step)
  refine setSlot_renamed ?_ a (slot + 1) (.float limit)
  exact setSlot_renamed h a slot (.float first)

theorem prepareOthers_renamed (h : s.Renamed ρ t) (a : Activation) (slot : Nat) (offset : Int)
    (first limit step : Value) :
    (prepareOthers s a slot offset first limit step).Renamed ρ
      (prepareOthers t (a.rename ρ) slot offset (first.rename ρ) (limit.rename ρ)
        (step.rename ρ)) := by
  simp only [prepareOthers, Value.number?_rename, badLoop_renamed h]
  split
  · exact .fail h rfl rfl
  · exact .fail h rfl rfl
  · exact .fail h rfl rfl
  · exact prepareFloats_renamed h a slot offset _ _ _

theorem forPrepare_renamed (h : s.Renamed ρ t) (a : Activation) (slot : Nat) (offset : Int)
    {first limit step first' limit' step' : Value} (hf : first' = first.rename ρ)
    (hl : limit' = limit.rename ρ) (hs : step' = step.rename ρ) :
    (forPrepare s a slot offset first limit step).Renamed ρ
      (forPrepare t (a.rename ρ) slot offset first' limit' step') := by
  subst hf hl hs
  have ho := prepareOthers_renamed h a slot offset first limit step
  cases first with
  | number first =>
    cases first with
    | int first =>
      cases step with
      | number step =>
        cases step with
        | int step => exact prepareInts_renamed h a slot offset first step limit
        | float step => exact ho
      | _ => exact ho
    | float first => exact ho
  | _ => exact ho

theorem nextInt_renamed (h : s.Renamed ρ t) (a : Activation) (slot : Nat) (offset : Int)
    (n rounds step : Int64) :
    (nextInt s a slot offset n rounds step).Renamed ρ
      (nextInt t (a.rename ρ) slot offset n rounds step) := by
  refine .ite (fun _ => .next h rfl) fun _ => ?_
  refine beginRound_renamed ?_ a slot (.int (n + step)) offset
  refine setSlot_renamed ?_ a slot (.int (n + step))
  exact setSlot_renamed h a (slot + 1) (.int (rounds - 1))

theorem nextFloat_renamed (h : s.Renamed ρ t) (a : Activation) (slot : Nat) (offset : Int)
    (x limit step : Float) :
    (nextFloat s a slot offset x limit step).Renamed ρ
      (nextFloat t (a.rename ρ) slot offset x limit step) := by
  refine .ite (fun _ => ?_) fun _ => .next h rfl
  refine beginRound_renamed ?_ a slot (.float (x + step)) offset
  exact setSlot_renamed h a slot (.float (x + step))

theorem forNext_renamed (h : s.Renamed ρ t) (a : Activation) (slot : Nat) (offset : Int)
    {x limit step x' limit' step' : Value} (hx : x' = x.rename ρ) (hl : limit' = limit.rename ρ)
    (hs : step' = step.rename ρ) :
    (forNext s a slot offset x limit step).Renamed ρ
      (forNext t (a.rename ρ) slot offset x' limit' step') := by
  subst hx hl hs
  have hend : (Effect.next s a).Renamed ρ (.next t (a.rename ρ)) := .next h rfl
  cases x with
  | number x =>
    cases limit with
    | number limit =>
      cases step with
      | number step =>
        cases x with
        | int n =>
          cases limit with
          | int rounds =>
            cases step with
            | int step => exact nextInt_renamed h a slot offset n rounds step
            | float step => exact hend
          | float limit => exact hend
        | float x =>
          cases limit with
          | int rounds => exact hend
          | float limit =>
            cases step with
            | int step => exact hend
            | float step => exact nextFloat_renamed h a slot offset x limit step
      | _ => cases x <;> cases limit <;> exact hend
    | _ => cases x <;> exact hend
  | _ => exact hend

theorem declareAll_renamed (h : s.Renamed ρ t) (a : Activation) (values : List Value)
    (slot : Nat) :
    (declareAll s a values slot).1.Renamed ρ
        (declareAll t (a.rename ρ) (values.map (Value.rename ρ)) slot).1 ∧
      (declareAll t (a.rename ρ) (values.map (Value.rename ρ)) slot).2 =
        (declareAll s a values slot).2.rename ρ := by
  induction values generalizing s t a slot with
  | nil => exact ⟨h, rfl⟩
  | cons v rest ih =>
    have hnext := ih (declare_renamed h a slot v) (declare s a slot v).2 (slot + 1)
    rw [← declare_activation h] at hnext
    exact hnext

theorem eachTest_renamed (h : s.Renamed ρ t) (a : Activation) (slot : Nat) (offset : Int) :
    (eachTest s a slot offset).Renamed ρ (eachTest t (a.rename ρ) slot offset) := by
  have hfirst : (a.rename ρ).many.headD .nil = (a.many.headD .nil).rename ρ :=
    Value.headD_rename a.many
  rw [eachTest, eachTest, hfirst, Value.isNil_rename]
  refine .ite (fun _ => .next h rfl) fun _ => ?_
  have hs := setSlot_renamed h a (slot + 2) (a.many.headD .nil)
  have hd := declareAll_renamed hs { a with many := [] } a.many (slot + 4)
  exact .next hd.1 (congrArg (Activation.jump · offset) hd.2)

/-! ## Every step -/

/-- **Steps.** A step has the same effect on stores that differ by a renaming. -/
theorem effect_renamed (h : s.Renamed ρ t) (a : Activation) (instr : Instr) :
    (effect s a instr).Renamed ρ (effect t (a.rename ρ) instr) := by
  have ht (count : Nat) (spread : Bool) := a.takeArguments_rename (ρ := ρ) count spread
  obtain ⟨closure, prototype, pc, slots, stack, many, arguments, guarded, raising, isTail⟩ := a
  cases instr with
  | push c => exact .next h (by cases c <;> rfl)
  | varargs want => exact .next h (Activation.accept_rename _ arguments want)
  | loadLocal slot =>
    exact .next h ((congrArg _ (slotValue_renamed h _ slot)).trans (Activation.push_rename _ _))
  | storeLocal slot =>
    obtain _ | ⟨v, stack⟩ := stack
    · exact .leave h rfl
    · exact .next (setSlot_renamed h _ slot v) rfl
  | declare slot =>
    obtain _ | ⟨v, stack⟩ := stack
    · exact .leave h rfl
    · exact declared_renamed h ⟨closure, prototype, pc, slots, stack, many, arguments, guarded,
        raising, isTail⟩ slot v
  | loadUpvalue i =>
    exact .next h ((congrArg _ (upvalue_renamed h _ (.ofUpvalue i))).trans
      (Activation.push_rename _ _))
  | storeUpvalue i =>
    obtain _ | ⟨v, stack⟩ := stack
    · exact .leave h rfl
    · exact .next (setUpvalue_renamed h _ (.ofUpvalue i) v) rfl
  | index origin =>
    obtain _ | ⟨key, _ | ⟨object, stack⟩⟩ := stack
    · exact .leave h rfl
    · exact .leave h rfl
    · exact found_renamed h _ origin object Activation.push_rename (h.lookup key object _)
  | setIndex below origin =>
    obtain _ | ⟨v, stack⟩ := stack
    · exact .leave h rfl
    · exact setIndex_renamed h _ origin v List.map_drop.symm
  | method name origin =>
    obtain _ | ⟨object, stack⟩ := stack
    · exact .leave h rfl
    · exact found_renamed h _ origin object Activation.pushUnder_rename
        (h.lookup (.string name) object _)
  | drop count =>
    refine .next h ?_
    simp [Activation.rename, List.map_drop]
  | call count spread want callee =>
    exact callTop_renamed h (congrArg Prod.snd (ht count spread))
      (congrArg Prod.fst (ht count spread))
  | tailCall count spread callee =>
    exact callLast_renamed h (congrArg Prod.snd (ht count spread))
      (congrArg Prod.fst (ht count spread))
  | leave count spread =>
    exact closing_renamed h _ 0 (.leave h (congrArg Prod.fst (ht count spread)))
  | jump offset => exact .next h rfl
  | jumpUnless _ | skipUnless _ | skipIf _ =>
    obtain _ | ⟨v, stack⟩ := stack
    · exact .leave h rfl
    · refine .next h ?_
      rw [Value.truthy_rename]
      split <;> rfl
  | arithmetic op left right =>
    obtain _ | ⟨y, stack⟩ := stack
    · cases op <;> exact .leave h rfl
    · cases op with
      | unm => exact operated_renamed h _ (h.arithmetic .unm y y left left)
      | bnot => exact operated_renamed h _ (h.arithmetic .bnot y y left left)
      | _ =>
        obtain _ | ⟨x, stack⟩ := stack
        · exact .leave h rfl
        · exact operated_renamed h _ (h.arithmetic _ x y left right)
  | concat left right =>
    obtain _ | ⟨y, _ | ⟨x, stack⟩⟩ := stack
    · exact .leave h rfl
    · exact .leave h rfl
    · exact operated_renamed h _ (h.concat x y left right)
  | compare op =>
    obtain _ | ⟨y, _ | ⟨x, stack⟩⟩ := stack
    · exact .leave h rfl
    · exact .leave h rfl
    · exact operated_renamed h _ (compared_renamed h op x y)
  | negate =>
    obtain _ | ⟨v, stack⟩ := stack
    · exact .leave h rfl
    · refine .next h ?_
      rw [Value.truthy_rename]
      rfl
  | length origin =>
    obtain _ | ⟨v, stack⟩ := stack
    · exact .leave h rfl
    · exact operated_renamed h _ (h.length v origin)
  | closure i => exact pushClosure_renamed h _ i
  | newTable => exact pushTable_renamed h _
  | setField below =>
    obtain _ | ⟨v, _ | ⟨key, stack⟩⟩ := stack
    · exact .leave h rfl
    · exact .leave h rfl
    · exact setField_renamed h _ key v List.map_drop.symm
  | setItems start count spread =>
    exact setItems_renamed h (congrArg Prod.snd (ht count spread)) start
      (congrArg Prod.fst (ht count spread))
  | forPrepare slot offset =>
    exact forPrepare_renamed h _ slot offset (slotValue_renamed h _ slot)
      (slotValue_renamed h _ (slot + 1)) (slotValue_renamed h _ (slot + 2))
  | forNext slot offset =>
    exact forNext_renamed h _ slot offset (slotValue_renamed h _ slot)
      (slotValue_renamed h _ (slot + 1)) (slotValue_renamed h _ (slot + 2))
  | eachCall slot count => exact callSlot_renamed h _ slot
  | eachTest slot offset => exact eachTest_renamed h _ slot offset
  | guard slot name => exact guardSlot_renamed h _ slot name
  | close level => exact closing_renamed h _ level (.next h rfl)
  | leap level offset => exact closing_renamed h _ level (.next h rfl)
  | label id => exact .next h rfl
  | goto label => exact .next h rfl

end ScriptHost.Lua.Machine

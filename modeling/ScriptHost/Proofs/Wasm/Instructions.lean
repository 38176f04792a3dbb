import ScriptHost.Proofs.Wasm.Sound

/-!
# Well-typed instructions

An instruction that is well typed on the stack it finds is never stuck (`effect_safe`): it traps, or
it leaves a sound store and a stack of the types that were foretold, from which the frame can go on
as the instruction says.
-/

namespace ScriptHost.Wasm

/-! ## What an instruction may do -/

/-- A frame can go on as the instruction says, if its stack is now of the types `ts` and code behind
the instruction expects `o`. -/
inductive Transfer.Safe (s : Store) (c : Context) (o : Operands) (ts : List ValType) :
    Transfer → Prop where
  | advance (h : o = .of ts) : Safe s c o ts .advance
  | jump {n : Nat} {us below : List ValType} (hl : c.labels[n]? = some us)
      (h : ts = us.reverse ++ below) : Safe s c o ts (.jump n)
  | leave {below : List ValType} (h : ts = c.results.reverse ++ below) : Safe s c o ts .leave
  | call {a : Nat} {f : Function} {below : List ValType} (hf : s.functions[a]? = some f)
      (h : ts = f.type.params.reverse ++ below) (ho : o = .of (f.type.results.reverse ++ below)) :
      Safe s c o ts (.call a)

/-- The instruction traps, or it changes the store, the locals and the stack and the frame can go
on. -/
inductive Effect.Safe (s : Store) (f : Frame) (c : Context) (o : Operands) : Effect → Prop where
  | trap (t : Trap) : Safe s f c o (Effect.trap t)
  | ok {s' : Store} {locals : Array Value} {stack : List Value} {ts : List ValType} {x : Transfer}
      (hs : s.Becomes s') (hl : s'.Typed locals.toList c.locals.toList) (hv : s'.Typed stack ts)
      (hx : x.Safe s' c o ts) : Safe s f c o (.ok (s', { f with locals, stack }, x))

namespace Effect.Safe

variable {α : Type} {s s' : Store} {f : Frame} {c : Context} {o : Operands} {ts : List ValType}
  {a : Option α} {k : α → Effect}

theorem next {stack : List Value} (hl : s.Typed f.locals.toList c.locals.toList)
    (hs : s.Becomes s') (hv : s'.Typed stack ts) :
    Effect.Safe s f c (.of ts) (Effect.next s' { f with stack }) :=
  .ok hs (hl.mono hs.grown) hv (.advance rfl)

theorem having (ha : ∃ v, a = some v) (h : ∀ v, a = some v → Effect.Safe s f c o (k v)) :
    Effect.Safe s f c o (Effect.having a k) := by
  obtain ⟨v, rfl⟩ := ha
  exact h v rfl

theorem having_some {v : α} (ha : a = some v) (h : Effect.Safe s f c o (k v)) :
    Effect.Safe s f c o (Effect.having a k) := by
  subst ha
  exact h

theorem orTrap {t : Trap} (h : ∀ v, a = some v → Effect.Safe s f c o (k v)) :
    Effect.Safe s f c o (Effect.orTrap t a k) := by
  cases a with
  | none => exact trap t
  | some v => exact h v rfl

end Effect.Safe

/-! ## Numbers -/

namespace Numeric

theorem type_cases (op : Numeric) :
    (∃ t, op.type.1 = [t]) ∨ ∃ t u, op.type.1 = [t, u] := by
  cases op with
  | intBinary | intCompare | floatBinary | floatCompare => exact .inr ⟨_, _, rfl⟩
  | _ => exact .inl ⟨_, rfl⟩

theorem eval_typed (s : Store) {op : Numeric} {a b : Nat} {v : Value} (h : op.eval a b = .ok v) :
    v.Typed s op.type.2 := by
  cases op with
  | intBinary w op =>
    simp only [eval] at h
    cases he : op.eval w.bits a b with
    | error t =>
      rw [he] at h
      cases h
    | ok n =>
      rw [he] at h
      cases h
      exact .ofBits s _ n
  | truncate target source signed saturating =>
    simp only [eval] at h
    cases he : truncateTo target.bits signed saturating (readFloat source a) with
    | error t =>
      rw [he] at h
      cases h
    | ok n =>
      rw [he] at h
      cases h
      exact .ofBits s _ n
  | intUnary | floatUnary | floatBinary | convert | intOfBits | floatOfBits =>
    cases h
    exact .ofBits s _ _
  | eqz | intCompare | floatCompare | wrap =>
    cases h
    exact .i32 _
  | extend =>
    cases h
    exact .i64 _
  | demote =>
    cases h
    exact .f32 _
  | promote =>
    cases h
    exact .f64 _

end Numeric

/-! ## What an instance has -/

section

variable {s : Store} {i : Instance} {n : Nat}

theorem Instance.Sound.table? (hi : i.Sound s) (hn : n < i.module.allTables.length) :
    ∃ x, s.table? i n = some x := by
  obtain ⟨a, t, ha, ht⟩ := hi.tables n hn
  exact ⟨(a, t), by simp [Store.table?, ha, ht]⟩

theorem Instance.Sound.memory? (hi : i.Sound s) (hn : n < i.module.allMemories.length) :
    ∃ x, s.memory? i n = some x := by
  obtain ⟨a, m, ha, hm⟩ := hi.memories n hn
  exact ⟨(a, m), by simp [Store.memory?, ha, hm]⟩

/-- An indirect call finds a function of the type that was asked for. -/
theorem Store.Sound.indirect (hs : s.Sound) (hi : i.Sound s) {type table k : Nat} {t : FuncType}
    (hn : table < i.module.allTables.length) (ht : i.module.types[type]? = some t) :
    (∃ trap, s.indirect i type table k = .error (.trap trap)) ∨
      ∃ a f, s.indirect i type table k = .ok a ∧ s.functions[a]? = some f ∧ f.type = t := by
  obtain ⟨⟨a, x⟩, hx⟩ := hi.table? hn
  rw [Store.indirect, hx, ht]
  dsimp only
  cases hk : x.items[k]? with
  | none => exact .inl ⟨_, rfl⟩
  | some r =>
    cases r with
    | none => exact .inl ⟨_, rfl⟩
    | some address =>
      have hx := Array.mem_of_getElem? (Store.table?_eq_some hx)
      have hlt := hs.tables x hx _ (Array.mem_of_getElem? hk) address rfl
      simp only [Array.getElem?_eq_getElem hlt]
      by_cases hf : s.functions[address].type = t
      · exact .inr ⟨address, _, if_pos hf, Array.getElem?_eq_getElem hlt, hf⟩
      · exact .inl ⟨_, if_neg hf⟩

end

/-! ## Single instructions -/

/-- Does the instruction work on a memory or on a segment of data? -/
def Basic.onMemory : Basic → Bool
  | .load _ _ | .store _ _ | .memorySize _ | .memoryGrow _ | .memoryInit _ _ | .dataDrop _
  | .memoryCopy _ _ | .memoryFill _ => true
  | _ => false

/-- Does it work on a table or on a segment of elements? -/
def Basic.onTable : Basic → Bool
  | .tableGet _ | .tableSet _ | .tableInit _ _ | .elementsDrop _ | .tableCopy _ _ | .tableGrow _
  | .tableSize _ | .tableFill _ => true
  | _ => false

/-- Does it read or set a local or a global? -/
def Basic.onVariable : Basic → Bool
  | .localGet _ | .localSet _ | .localTee _ | .globalGet _ | .globalSet _ => true
  | _ => false

/-- May it go on elsewhere than behind itself? -/
def Basic.transfers : Basic → Bool
  | .br _ | .brIf _ | .brTable _ _ | .leave | .call _ | .callIndirect _ _ => true
  | _ => false

/-- The context of code in a function of a module. -/
def Module.codeContext (m : Module) (locals : List ValType) (labels : List (List ValType))
    (results : List ValType) : Context :=
  { m.context with locals := locals.toArray, labels, results }

namespace Context

variable {c : Context} {n : Nat} {u : Unit}

theorem requireMemory_eq_some : c.requireMemory n = some u ↔ n < c.memories.length := by
  simp [requireMemory]

theorem requireTable_eq_some : c.requireTable n = some u ↔ n < c.tables.length := by
  simp [requireTable]

end Context

section

variable {s : Store} {i : Instance} {f : Frame} {locals results ts : List ValType}
  {labels : List (List ValType)} {o : Operands}

open Effect.Safe

/-- Takes a value of a known type off the stack. -/
theorem Store.Typed.of_cons {vs : List Value} {t : ValType} (h : s.Typed vs (t :: ts)) :
    ∃ v rest, vs = v :: rest ∧ v.Typed s t ∧ s.Typed rest ts := by
  cases h with
  | cons hv hrest => exact ⟨_, _, rfl, hv, hrest⟩

theorem Store.Typed.of_i32 {vs : List Value} (h : s.Typed vs (.i32 :: ts)) :
    ∃ n rest, vs = .i32 n :: rest ∧ s.Typed rest ts := by
  obtain ⟨_, rest, rfl, hv, hrest⟩ := h.of_cons
  cases hv with
  | i32 n => exact ⟨n, rest, rfl, hrest⟩

theorem Store.Typed.of_three {vs : List Value} (h : s.Typed vs (.i32 :: .i32 :: .i32 :: ts)) :
    ∃ k m n rest, vs = .i32 k :: .i32 m :: .i32 n :: rest ∧ s.Typed rest ts := by
  obtain ⟨k, _, rfl, hm⟩ := h.of_i32
  obtain ⟨m, _, rfl, hn⟩ := hm.of_i32
  obtain ⟨n, rest, rfl, hrest⟩ := hn.of_i32
  exact ⟨k, m, n, rest, rfl, hrest⟩

theorem Store.Typed.of_funcref {vs : List Value} (h : s.Typed vs (.funcref :: ts)) :
    ∃ r rest, vs = .funcref r :: rest ∧ s.Knows r ∧ s.Typed rest ts := by
  obtain ⟨_, rest, rfl, hv, hrest⟩ := h.of_cons
  cases hv with
  | funcref hr => exact ⟨_, rest, rfl, hr, hrest⟩

theorem Access.decode_typed (s : Store) (a : Access) (bytes : List UInt8) :
    (a.decode bytes).Typed s a.type := by
  unfold Access.decode
  dsimp only
  split
  · exact .ofBits s _ _
  · exact .ofBits s _ _

theorem memoryEffect_safe (hs : s.Sound) (hi : s.instances[f.owner]? = some i)
    (hl : s.Typed f.locals.toList locals) (hv : s.Typed f.stack ts) {op : Basic}
    (hop : op.onMemory)
    (hc : (i.module.codeContext locals labels results).checkBasic (.of ts) op = some o) :
    (memoryEffect s i f op).Safe s f (i.module.codeContext locals labels results) o := by
  obtain ⟨owner, vars, arity, blocks, code, stack⟩ := f
  have his := hs.instance_sound hi
  have hself := hs.becomes_self
  unfold Context.checkBasic at hc
  cases op with
  | load access arg =>
    simp only [Context.checkAccess, bind, Option.bind_eq_some_iff,
      Operands.apply_of, Context.requireMemory_eq_some] at hc
    obtain ⟨_, ⟨_, hn, -⟩, rest, rfl, rfl⟩ := hc
    obtain ⟨base, vs, rfl, hvs⟩ := hv.of_i32
    refine having (his.memory? hn) fun (a, m) hm => ?_
    dsimp only
    split
    · exact next hl hself (.cons (access.decode_typed s _) hvs)
    · exact trap _
  | store access arg =>
    simp only [Context.checkAccess, bind, Option.bind_eq_some_iff,
      Operands.apply_of, Context.requireMemory_eq_some] at hc
    obtain ⟨_, ⟨_, hn, -⟩, rest, rfl, rfl⟩ := hc
    obtain ⟨v, _, rfl, -, hbase⟩ := hv.of_cons
    obtain ⟨base, vs, rfl, hvs⟩ := hbase.of_i32
    refine having (his.memory? hn) fun (a, m) hm => ?_
    dsimp only
    split
    · rename_i hw
      have hb := hs.setMemory (Store.memory?_eq_some hm) (Memory.write?_grows hw)
      exact next hl hb (hvs.mono hb.grown)
    · exact trap _
  | memorySize n =>
    simp only [bind, Option.bind_eq_some_iff, Operands.push_of,
      Context.requireMemory_eq_some, Option.some.injEq] at hc
    obtain ⟨_, hn, rfl⟩ := hc
    refine having (his.memory? hn) fun (a, m) hm => ?_
    exact next hl hself (.cons (.i32 _) hv)
  | memoryGrow n =>
    simp only [bind, Option.bind_eq_some_iff, Operands.apply_of,
      Context.requireMemory_eq_some] at hc
    obtain ⟨_, hn, rest, rfl, rfl⟩ := hc
    obtain ⟨pages, vs, rfl, hvs⟩ := hv.of_i32
    refine having (his.memory? hn) fun (a, m) hm => ?_
    dsimp only
    split
    · rename_i hg
      have hb := hs.setMemory (Store.memory?_eq_some hm) (Memory.grow?_grows hg)
      exact next hl hb (.cons (.i32 _) (hvs.mono hb.grown))
    · exact next hl hself (.cons (.i32 _) hvs)
  | memoryInit data n =>
    simp only [bind, Option.bind_eq_some_iff, Operands.apply_of,
      Context.requireMemory_eq_some] at hc
    obtain ⟨_, hn, _, -, rest, rfl, rfl⟩ := hc
    obtain ⟨count, source, target, vs, rfl, hvs⟩ := hv.of_three
    refine having (his.memory? hn) fun (a, m) hm => ?_
    dsimp only
    split
    · refine orTrap fun m' hw => ?_
      have hb := hs.setMemory (Store.memory?_eq_some hm) (Memory.write?_grows hw)
      exact next hl hb (hvs.mono hb.grown)
    · exact trap _
  | memoryCopy n k =>
    simp only [bind, Option.bind_eq_some_iff, Operands.apply_of,
      Context.requireMemory_eq_some] at hc
    obtain ⟨_, hn, _, hk, rest, rfl, rfl⟩ := hc
    obtain ⟨count, source, target, vs, rfl, hvs⟩ := hv.of_three
    refine having (his.memory? hn) fun (a, m) hm => having (his.memory? hk) fun _ _ => ?_
    refine orTrap fun _ _ => orTrap fun m' hw => ?_
    have hb := hs.setMemory (Store.memory?_eq_some hm) (Memory.write?_grows hw)
    exact next hl hb (hvs.mono hb.grown)
  | memoryFill n =>
    simp only [bind, Option.bind_eq_some_iff, Operands.apply_of,
      Context.requireMemory_eq_some] at hc
    obtain ⟨_, hn, rest, rfl, rfl⟩ := hc
    obtain ⟨count, value, target, vs, rfl, hvs⟩ := hv.of_three
    refine having (his.memory? hn) fun (a, m) hm => ?_
    dsimp only
    split
    · have hb := hs.setMemory (Store.memory?_eq_some hm)
        (m.put_grows target.toNat (List.replicate count.toNat value.toUInt8))
      exact next hl hb (hvs.mono hb.grown)
    · exact trap _
  | dataDrop n =>
    simp only [bind, Option.bind_eq_some_iff, Option.some.injEq] at hc
    obtain ⟨_, -, rfl⟩ := hc
    have hb := hs.dropData hi n
    exact next hl hb (hv.mono hb.grown)
  | _ => cases hop

theorem tableEffect_safe (hs : s.Sound) (hi : s.instances[f.owner]? = some i)
    (hl : s.Typed f.locals.toList locals) (hv : s.Typed f.stack ts) {op : Basic}
    (hop : op.onTable)
    (hc : (i.module.codeContext locals labels results).checkBasic (.of ts) op = some o) :
    (tableEffect s i f op).Safe s f (i.module.codeContext locals labels results) o := by
  obtain ⟨owner, vars, arity, blocks, code, stack⟩ := f
  have his := hs.instance_sound hi
  have hself := hs.becomes_self
  -- what a table refers to is known
  have known {n a : Nat} {t : TableInstance} (ht : s.table? i n = some (a, t)) :
      ∀ r ∈ t.items, s.Knows r :=
    hs.tables t (Array.mem_of_getElem? (Store.table?_eq_some ht))
  unfold Context.checkBasic at hc
  cases op with
  | tableGet n =>
    simp only [bind, Option.bind_eq_some_iff, Operands.apply_of,
      Context.requireTable_eq_some] at hc
    obtain ⟨_, hn, rest, rfl, rfl⟩ := hc
    obtain ⟨k, vs, rfl, hvs⟩ := hv.of_i32
    refine having (his.table? hn) fun (a, t) ht => orTrap fun item hitem => ?_
    exact next hl hself (.cons (.funcref (known ht _ (Array.mem_of_getElem? hitem))) hvs)
  | tableSet n =>
    simp only [bind, Option.bind_eq_some_iff, Operands.apply_of,
      Context.requireTable_eq_some] at hc
    obtain ⟨_, hn, rest, rfl, rfl⟩ := hc
    obtain ⟨item, _, rfl, hitem, hk⟩ := hv.of_funcref
    obtain ⟨k, vs, rfl, hvs⟩ := hk.of_i32
    refine having (his.table? hn) fun (a, t) ht => orTrap fun u hw => ?_
    have hb := hs.writeTable ht hw fun r hr => List.mem_singleton.1 hr ▸ hitem
    exact next hl hb (hvs.mono hb.grown)
  | tableSize n =>
    simp only [bind, Option.bind_eq_some_iff, Operands.push_of,
      Context.requireTable_eq_some, Option.some.injEq] at hc
    obtain ⟨_, hn, rfl⟩ := hc
    refine having (his.table? hn) fun (a, t) ht => ?_
    exact next hl hself (.cons (.i32 _) hv)
  | tableGrow n =>
    simp only [bind, Option.bind_eq_some_iff, Operands.apply_of,
      Context.requireTable_eq_some] at hc
    obtain ⟨_, hn, rest, rfl, rfl⟩ := hc
    obtain ⟨count, _, rfl, hbelow⟩ := hv.of_i32
    obtain ⟨item, vs, rfl, hitem, hvs⟩ := hbelow.of_funcref
    refine having (his.table? hn) fun (a, t) ht => ?_
    dsimp only
    split
    · rename_i hg
      have hb := hs.setTable (Store.table?_eq_some ht) (TableInstance.grow?_grows hg) fun r hr =>
        (TableInstance.mem_of_grow? hg hr).elim (known ht r) fun hr => hr ▸ hitem
      exact next hl hb (.cons (.i32 _) (hvs.mono hb.grown))
    · exact next hl hself (.cons (.i32 _) hvs)
  | tableFill n =>
    simp only [bind, Option.bind_eq_some_iff, Operands.apply_of,
      Context.requireTable_eq_some] at hc
    obtain ⟨_, hn, rest, rfl, rfl⟩ := hc
    obtain ⟨count, _, rfl, hbelow⟩ := hv.of_i32
    obtain ⟨item, _, rfl, hitem, hstart⟩ := hbelow.of_funcref
    obtain ⟨start, vs, rfl, hvs⟩ := hstart.of_i32
    refine having (his.table? hn) fun (a, t) ht => ?_
    dsimp only
    split
    · refine orTrap fun u hw => ?_
      have hb := hs.writeTable ht hw fun r hr => List.eq_of_mem_replicate hr ▸ hitem
      exact next hl hb (hvs.mono hb.grown)
    · exact trap _
  | tableInit elements n =>
    simp only [bind, Option.bind_eq_some_iff, Operands.apply_of,
      Context.requireTable_eq_some] at hc
    obtain ⟨_, hn, _, -, rest, rfl, rfl⟩ := hc
    obtain ⟨count, source, target, vs, rfl, hvs⟩ := hv.of_three
    refine having (his.table? hn) fun (a, t) ht => ?_
    dsimp only
    split
    · refine orTrap fun u hw => ?_
      have hb := hs.writeTable ht hw fun r hr =>
        his.segment elements r (List.mem_of_mem_drop (List.mem_of_mem_take hr))
      exact next hl hb (hvs.mono hb.grown)
    · exact trap _
  | tableCopy n k =>
    simp only [bind, Option.bind_eq_some_iff, Operands.apply_of,
      Context.requireTable_eq_some] at hc
    obtain ⟨_, hn, _, hk, rest, rfl, rfl⟩ := hc
    obtain ⟨count, source, target, vs, rfl, hvs⟩ := hv.of_three
    refine having (his.table? hn) fun (a, t) ht => having (his.table? hk) fun (_, t') ht' => ?_
    refine orTrap fun items hread => orTrap fun u hw => ?_
    have hb := hs.writeTable ht hw fun r hr => known ht' r (TableInstance.mem_of_read? hread hr)
    exact next hl hb (hvs.mono hb.grown)
  | elementsDrop n =>
    simp only [bind, Option.bind_eq_some_iff, Option.some.injEq] at hc
    obtain ⟨_, -, rfl⟩ := hc
    have hb := hs.dropElements hi n
    exact next hl hb (hv.mono hb.grown)
  | _ => cases hop

/-- An operator takes one or two numbers off the stack. -/
theorem numericEffect_safe (hs : s.Sound) {c : Context}
    (hl : s.Typed f.locals.toList c.locals.toList) (hv : s.Typed f.stack ts) {op : Numeric}
    (hc : (Operands.of ts).apply op.type.1 [op.type.2] = some o) :
    (effect s i f (.numeric op)).Safe s f c o := by
  obtain ⟨owner, vars, arity, blocks, code, stack⟩ := f
  obtain ⟨rest, rfl, rfl⟩ := Operands.apply_of.1 hc
  have evaluated {a b : Nat} {v : Value} {vs : List Value} (he : op.eval a b = .ok v)
      (hvs : s.Typed vs rest) :
      Effect.Safe s ⟨owner, vars, arity, blocks, code, stack⟩ c (.of ([op.type.2].reverse ++ rest))
        (Effect.next s ⟨owner, vars, arity, blocks, code, v :: vs⟩) :=
    next hl hs.becomes_self (.cons (op.eval_typed s he) hvs)
  obtain ⟨t, ht⟩ | ⟨t, u, ht⟩ := op.type_cases
  · rw [ht] at hv
    obtain ⟨a, vs, rfl, -, hvs⟩ := hv.of_cons
    have hlength : op.type.1.length = 1 := congrArg List.length ht
    unfold effect
    dsimp only
    simp only [hlength]
    cases he : op.eval a.bits 0 with
    | ok v => exact evaluated he hvs
    | error t => exact trap t
  · rw [ht] at hv
    obtain ⟨b, _, rfl, -, ha⟩ := hv.of_cons
    obtain ⟨a, vs, rfl, -, hvs⟩ := ha.of_cons
    have hlength : op.type.1.length = 2 := congrArg List.length ht
    unfold effect
    dsimp only
    simp only [hlength]
    cases he : op.eval a.bits b.bits with
    | ok v => exact evaluated he hvs
    | error t => exact trap t

/-- Every label of a table of jumps takes along what lies on the stack. -/
theorem Context.checkBasic_brTable {c : Context} {ns : List Nat} {last : Nat}
    (h : c.checkBasic (.of ts) (.brTable ns last) = some o) :
    ∃ rest, ts = .i32 :: rest ∧ ∀ n, n ∈ ns ∨ n = last →
      ∃ us below, c.labels[n]? = some us ∧ rest = us.reverse ++ below := by
  unfold checkBasic at h
  simp only [bind, Option.bind_eq_some_iff, Operands.pop_of] at h
  obtain ⟨_, ⟨rest, rfl, rfl⟩, us, hus, _, hlast, _, hall, -⟩ := h
  refine ⟨rest, rfl, fun n hn => ?_⟩
  rcases hn with hn | rfl
  · clear hus hlast
    induction ns with
    | nil => cases hn
    | cons k ns ih =>
      rw [List.forIn_cons] at hall
      simp only [bind, Option.bind_eq_some_iff] at hall
      obtain ⟨a, ⟨us', hus', _, hpop, ha⟩, hrest⟩ := hall
      obtain ⟨below, rfl, -⟩ := Operands.popAll_of.1 hpop
      split at ha
      · cases ha
      · cases ha
        rcases List.mem_cons.1 hn with rfl | hn
        · exact ⟨us', below, hus', rfl⟩
        · exact ih hrest hn
  · obtain ⟨below, rfl, -⟩ := Operands.popAll_of.1 hlast
    exact ⟨us, below, hus, rfl⟩

/-- Both values that are selected from are of the type of the one that is left. -/
theorem Context.checkBasic_select {c : Context} {types : Option (List ValType)}
    (h : c.checkBasic (.of ts) (.select types) = some o) :
    ∃ t rest, ts = .i32 :: t :: t :: rest ∧ o = .of (t :: rest) := by
  cases types with
  | none =>
    unfold checkBasic at h
    simp only [bind, Option.bind_eq_some_iff, Operands.pop_of, Prod.exists] at h
    obtain ⟨_, ⟨_, rfl, rfl⟩, _, _, hb, _, _, ha, h⟩ := h
    obtain ⟨b, _, rfl, rfl, rfl⟩ := Operands.popAny_of.1 hb
    obtain ⟨a, rest, rfl, rfl, rfl⟩ := Operands.popAny_of.1 ha
    split at h
    · cases h
    · simp only [Option.isNone_some, Bool.false_eq_true, if_false, Option.some.injEq,
        false_or] at h
      split at h
      · rename_i hba
        subst hba
        cases h
        exact ⟨b, rest, rfl, rfl⟩
      · cases h
  | some types =>
    match types, h with
    | [t], h =>
      obtain ⟨rest, rfl, rfl⟩ := Operands.apply_of.1 h
      exact ⟨t, rest, rfl, rfl⟩

theorem exists_getElem?_of_forall₂ {α β : Type} {R : α → β → Prop} {xs : List α} {ys : List β}
    (h : List.Forall₂ R xs ys) {n : Nat} {y : β} (hy : ys[n]? = some y) :
    ∃ x, xs[n]? = some x ∧ R x y := by
  induction h generalizing n with
  | nil => cases hy
  | cons hr _ ih =>
    cases n with
    | zero =>
      cases hy
      exact ⟨_, rfl, hr⟩
    | succ n => exact ih hy

theorem Store.Typed.set {vs : List Value} (h : s.Typed vs ts) {n : Nat} {t : ValType} {v : Value}
    (ht : ts[n]? = some t) (hv : v.Typed s t) : s.Typed (vs.set n v) ts := by
  induction h generalizing n with
  | nil => cases ht
  | cons hw hrest ih =>
    cases n with
    | zero =>
      cases ht
      exact .cons hv hrest
    | succ n => exact .cons hw (ih ht)

theorem variableEffect_safe (hs : s.Sound) (hi : s.instances[f.owner]? = some i)
    (hl : s.Typed f.locals.toList locals) (hv : s.Typed f.stack ts) {op : Basic}
    (hop : op.onVariable)
    (hc : (i.module.codeContext locals labels results).checkBasic (.of ts) op = some o) :
    (effect s i f op).Safe s f (i.module.codeContext locals labels results) o := by
  obtain ⟨owner, vars, arity, blocks, code, stack⟩ := f
  have his := hs.instance_sound hi
  have hself := hs.becomes_self
  -- the numbers of locals and globals mean the same to the module and to the instance
  have hlocals (n : Nat) :
      (i.module.codeContext locals labels results).locals[n]? = locals[n]? := by
    simp [Module.codeContext]
  have hglobals : (i.module.codeContext locals labels results).globals = i.module.allGlobals := rfl
  unfold Context.checkBasic at hc
  cases op with
  | localGet n =>
    simp only [bind, Option.bind_eq_some_iff, hlocals, Operands.push_of,
      pure, Option.some.injEq] at hc
    obtain ⟨t, ht, rfl⟩ := hc
    obtain ⟨v, hget, ht⟩ := exists_getElem?_of_forall₂ hl ht
    rw [Array.getElem?_toList] at hget
    exact having_some hget (next hl hself (.cons ht hv))
  | localSet n =>
    simp only [bind, Option.bind_eq_some_iff, hlocals, Operands.pop_of] at hc
    obtain ⟨t, ht, rest, rfl, rfl⟩ := hc
    obtain ⟨v, vs, rfl, hw, hvs⟩ := hv.of_cons
    refine .ok hself ?_ hvs (.advance rfl)
    rw [Array.toList_setIfInBounds]
    exact hl.set ht hw
  | localTee n =>
    simp only [bind, Option.bind_eq_some_iff, hlocals, Operands.apply_of] at hc
    obtain ⟨t, ht, rest, rfl, rfl⟩ := hc
    obtain ⟨v, vs, rfl, hw, hvs⟩ := hv.of_cons
    refine .ok hself ?_ hv (.advance rfl)
    rw [Array.toList_setIfInBounds]
    exact hl.set ht hw
  | globalGet n =>
    simp only [bind, Option.bind_eq_some_iff, hglobals, Operands.push_of,
      pure, Option.some.injEq] at hc
    obtain ⟨t, ht, rfl⟩ := hc
    obtain ⟨a, g, ha, hg, rfl⟩ := his.globals n t ht
    have hget : i.globals[n]?.bind (s.globals[·]?) = some g := by
      rw [ha, Option.bind_some, hg]
    have hw := hs.globals g (Array.mem_of_getElem? hg)
    exact having_some hget (next hl hself (.cons hw hv))
  | globalSet n =>
    simp only [bind, Option.bind_eq_some_iff, hglobals] at hc
    obtain ⟨t, ht, hc⟩ := hc
    split at hc
    · obtain ⟨rest, rfl, rfl⟩ := Operands.pop_of.1 hc
      obtain ⟨v, vs, rfl, hw, hvs⟩ := hv.of_cons
      obtain ⟨a, g, ha, hg, rfl⟩ := his.globals n t ht
      have hb := hs.setGlobal hg hw
      exact having_some ha (having_some hg (next hl hb (hvs.mono hb.grown)))
    · cases hc
  | _ => cases hop

theorem transferEffect_safe (hs : s.Sound) (hi : s.instances[f.owner]? = some i)
    (hl : s.Typed f.locals.toList locals) (hv : s.Typed f.stack ts) {op : Basic}
    (hop : op.transfers)
    (hc : (i.module.codeContext locals labels results).checkBasic (.of ts) op = some o) :
    (effect s i f op).Safe s f (i.module.codeContext locals labels results) o := by
  obtain ⟨owner, vars, arity, blocks, code, stack⟩ := f
  have his := hs.instance_sound hi
  have hself := hs.becomes_self
  -- the numbers of functions mean the same to the module and to the instance
  have hfunction (n : Nat) : (i.module.codeContext locals labels results).function? n =
    i.module.functionType? n := rfl
  unfold Context.checkBasic at hc
  cases op with
  | br n =>
    simp only [bind, Option.bind_eq_some_iff, Operands.popAll_of] at hc
    obtain ⟨us, hus, _, ⟨below, rfl, rfl⟩, -⟩ := hc
    exact .ok hself hl hv (.jump hus rfl)
  | brIf n =>
    simp only [bind, Option.bind_eq_some_iff, Operands.pop_of] at hc
    obtain ⟨us, hus, _, ⟨_, rfl, rfl⟩, hc⟩ := hc
    obtain ⟨below, rfl, rfl⟩ := Operands.apply_of.1 hc
    obtain ⟨k, vs, rfl, hvs⟩ := hv.of_i32
    refine .ok hself hl hvs ?_
    split
    · exact .advance rfl
    · exact .jump hus rfl
  | brTable ns last =>
    obtain ⟨rest, rfl, hlabels⟩ := Context.checkBasic_brTable hc
    obtain ⟨k, vs, rfl, hvs⟩ := hv.of_i32
    have hmem : ns.getD k.toNat last ∈ ns ∨ ns.getD k.toNat last = last := by
      rw [List.getD_eq_getElem?_getD]
      cases hk : ns[k.toNat]? with
      | none => exact .inr rfl
      | some n => exact .inl (List.mem_of_getElem? hk)
    obtain ⟨us, below, hus, hrest⟩ := hlabels _ hmem
    exact .ok hself hl hvs (.jump hus hrest)
  | leave =>
    simp only [bind, Option.bind_eq_some_iff, Operands.popAll_of] at hc
    obtain ⟨_, ⟨below, rfl, rfl⟩, -⟩ := hc
    exact .ok hself hl hv (.leave rfl)
  | call n =>
    simp only [bind, Option.bind_eq_some_iff, Operands.apply_of,
      hfunction] at hc
    obtain ⟨t, ht, below, rfl, rfl⟩ := hc
    obtain ⟨a, g, ha, hg, rfl⟩ := his.functions n t ht
    exact having_some ha (.ok hself hl hv (.call hg rfl rfl))
  | callIndirect type table =>
    simp only [bind, Option.bind_eq_some_iff, Operands.pop_of,
      Context.requireTable_eq_some] at hc
    obtain ⟨_, hn, t, ht, _, ⟨_, rfl, rfl⟩, hc⟩ := hc
    obtain ⟨below, rfl, rfl⟩ := Operands.apply_of.1 hc
    obtain ⟨k, vs, rfl, hvs⟩ := hv.of_i32
    unfold effect
    dsimp only
    obtain ⟨trap, he⟩ | ⟨a, g, he, hg, rfl⟩ := hs.indirect his (k := k.toNat) hn ht
    · rw [he]
      exact .trap trap
    · rw [he]
      exact .ok hself hl hvs (.call hg rfl rfl)
  | _ => cases hop

/-- **Well-typed instructions are safe.** They trap or do what was foretold, and are never stuck. -/
theorem effect_safe (hs : s.Sound) (hi : s.instances[f.owner]? = some i)
    (hl : s.Typed f.locals.toList locals) (hv : s.Typed f.stack ts) {op : Basic}
    (hc : (i.module.codeContext locals labels results).checkBasic (.of ts) op = some o) :
    (effect s i f op).Safe s f (i.module.codeContext locals labels results) o := by
  have his := hs.instance_sound hi
  have hself := hs.becomes_self
  unfold Context.checkBasic at hc
  cases op with
  | numeric op => exact numericEffect_safe hs hl hv hc
  | tableGet _ | tableSet _ | tableInit _ _ | elementsDrop _ | tableCopy _ _ | tableGrow _
  | tableSize _ | tableFill _ =>
    unfold effect
    exact tableEffect_safe hs hi hl hv rfl hc
  | load _ _ | store _ _ | memorySize _ | memoryGrow _ | memoryInit _ _ | dataDrop _
  | memoryCopy _ _ | memoryFill _ =>
    unfold effect
    exact memoryEffect_safe hs hi hl hv rfl hc
  | localGet _ | localSet _ | localTee _ | globalGet _ | globalSet _ =>
    exact variableEffect_safe hs hi hl hv rfl hc
  | br _ | brIf _ | brTable _ _ | leave | call _ | callIndirect _ _ =>
    exact transferEffect_safe hs hi hl hv rfl hc
  | unreachable => exact trap _
  | nop =>
    cases hc
    exact next hl hself hv
  | i32 n =>
    cases hc
    exact next hl hself (.cons (.i32 n) hv)
  | i64 n =>
    cases hc
    exact next hl hself (.cons (.i64 n) hv)
  | f32 n =>
    cases hc
    exact next hl hself (.cons (.f32 n) hv)
  | f64 n =>
    cases hc
    exact next hl hself (.cons (.f64 n) hv)
  | drop =>
    obtain ⟨owner, vars, arity, blocks, code, stack⟩ := f
    simp only [Option.map_eq_some_iff, Prod.exists, Operands.popAny_of] at hc
    obtain ⟨_, _, ⟨t, rest, rfl, rfl, rfl⟩, rfl⟩ := hc
    obtain ⟨v, vs, rfl, -, hvs⟩ := hv.of_cons
    exact next hl hself hvs
  | select types =>
    obtain ⟨owner, vars, arity, blocks, code, stack⟩ := f
    obtain ⟨t, rest, rfl, rfl⟩ := Context.checkBasic_select hc
    obtain ⟨k, _, rfl, hchoice⟩ := hv.of_i32
    obtain ⟨b, _, rfl, hb, hbelow⟩ := hchoice.of_cons
    obtain ⟨a, vs, rfl, ha, hvs⟩ := hbelow.of_cons
    refine next hl hself (.cons ?_ hvs)
    split
    · exact hb
    · exact ha
  | refNull =>
    cases hc
    exact next hl hself (.cons (.funcref s.knows_none) hv)
  | refIsNull =>
    obtain ⟨owner, vars, arity, blocks, code, stack⟩ := f
    obtain ⟨rest, rfl, rfl⟩ := Operands.apply_of.1 hc
    obtain ⟨r, vs, rfl, -, hvs⟩ := hv.of_funcref
    exact next hl hself (.cons (.i32 _) hvs)
  | refFunc n =>
    have hfunction : (i.module.codeContext locals labels results).function? n =
      i.module.functionType? n := rfl
    simp only [bind, Option.bind_eq_some_iff, hfunction,
      Operands.push_of] at hc
    obtain ⟨t, ht, hc⟩ := hc
    split at hc
    · cases hc
      obtain ⟨a, g, ha, hg, -⟩ := his.functions n t ht
      refine having_some ha (next hl hself (.cons (.funcref fun b hb => ?_) hv))
      cases hb
      exact (Array.getElem?_eq_some_iff.1 hg).1
    · cases hc

end

end ScriptHost.Wasm

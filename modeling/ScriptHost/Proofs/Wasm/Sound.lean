import Mathlib.Data.List.Forall2
import ScriptHost.Proofs.Wasm.Growth
import ScriptHost.Wasm.Typing

/-!
# Sound stores

Code that is reached finds a stack on which every value has a type and below which there is nothing
(`Operands.of`). There the operations on operands take lists of types apart and put them together
(`Operands.popAll_of`, `Operands.apply_of`). Only behind a jump is anything else known of the
stack, and no code is reached there.

In a sound store everything is of its type (`Store.Sound`): globals hold values of theirs, the code
of every function is well typed in its instance, an instance has a place for all that its module
speaks of, and no table refers to a function that is not there. A store stays sound where a table,
a memory, a global or the segments of an instance change, and what was of a type before still is
(`Store.Becomes`).
-/

namespace ScriptHost.Wasm

/-! ## Typing on a known stack -/

namespace Operands

/-- A stack of values of just these types, the top first. -/
def of (ts : List ValType) : Operands := ⟨ts.map some, false⟩

variable {ts us params results : List ValType} {t : ValType} {o : Operands}

theorem push_of (ts : List ValType) (t : ValType) : (of ts).push t = of (t :: ts) := rfl

theorem pushAll_of (ts us : List ValType) : (of ts).pushAll us = of (us.reverse ++ ts) := by
  rw [pushAll]
  induction us generalizing ts with
  | nil => rfl
  | cons u us ih =>
    rw [List.foldl_cons, push_of, ih, List.reverse_cons, List.append_assoc, List.singleton_append]

theorem ofTypes_eq (ts : List ValType) : ofTypes ts = of ts.reverse :=
  (pushAll_of [] ts).trans (by rw [List.append_nil])

theorem popAny_of {found : Option ValType} :
    (of ts).popAny = some (found, o) ↔ ∃ t rest, ts = t :: rest ∧ found = some t ∧ o = of rest := by
  cases ts with
  | nil => simp [of, popAny]
  | cons u us =>
    constructor
    · intro h
      cases h
      exact ⟨u, us, rfl, rfl, rfl⟩
    · rintro ⟨_, _, h, rfl, rfl⟩
      cases h
      rfl

theorem pop_of : (of ts).pop t = some o ↔ ∃ rest, ts = t :: rest ∧ o = of rest := by
  simp only [pop, bind, Option.bind_eq_some_iff, Prod.exists, popAny_of]
  constructor
  · rintro ⟨_, _, ⟨u, rest, rfl, rfl, rfl⟩, h⟩
    split at h
    · rename_i hu
      obtain rfl : u = t := by simpa using hu
      cases h
      exact ⟨rest, rfl, rfl⟩
    · cases h
  · rintro ⟨rest, rfl, rfl⟩
    exact ⟨some t, of rest, ⟨t, rest, rfl, rfl, rfl⟩, by simp⟩

theorem popAll_of : (of ts).popAll us = some o ↔ ∃ rest, ts = us.reverse ++ rest ∧ o = of rest := by
  rw [popAll]
  -- the values are taken from the top, so the last type comes first
  generalize us.reverse = us
  induction us generalizing ts with
  | nil => simp [eq_comm]
  | cons u us ih =>
    simp only [List.foldlM_cons, bind, Option.bind_eq_some_iff, pop_of]
    constructor
    · rintro ⟨_, ⟨rest, rfl, rfl⟩, h⟩
      obtain ⟨below, rfl, rfl⟩ := ih.1 h
      exact ⟨below, rfl, rfl⟩
    · rintro ⟨below, rfl, rfl⟩
      exact ⟨of (us ++ below), ⟨us ++ below, rfl, rfl⟩, ih.2 ⟨below, rfl, rfl⟩⟩

theorem isExactly_of : (of ts).isExactly us ↔ ts = us.reverse := by
  rw [isExactly]
  cases h : (of ts).popAll us with
  | none =>
    refine ⟨nofun, fun hts => ?_⟩
    have := popAll_of.2 ⟨[], hts.trans (List.append_nil _).symm, rfl⟩
    cases h.symm.trans this
  | some o =>
    obtain ⟨rest, rfl, rfl⟩ := popAll_of.1 h
    simp [of, List.isEmpty_iff]

theorem apply_of : (of ts).apply params results = some o ↔
    ∃ rest, ts = params.reverse ++ rest ∧ o = of (results.reverse ++ rest) := by
  rw [apply, Option.map_eq_some_iff]
  constructor
  · rintro ⟨_, h, rfl⟩
    obtain ⟨rest, rfl, rfl⟩ := popAll_of.1 h
    exact ⟨rest, rfl, pushAll_of _ _⟩
  · rintro ⟨rest, rfl, rfl⟩
    exact ⟨of rest, popAll_of.2 ⟨rest, rfl, rfl⟩, pushAll_of _ _⟩

end Operands

namespace Context

variable {c : Context} {ts us : List ValType} {o : Operands} {code : List Instr}

/-- Code that begins on the stack leaves values of just these types behind, the last of them on
top. -/
def Leads (c : Context) (o : Operands) (code : List Instr) (results : List ValType) : Prop :=
  ∃ o', c.checkAll o code = some o' ∧ o'.isExactly results

theorem leads_nil : c.Leads (.of ts) [] us ↔ ts = us.reverse := by
  simp [Leads, checkAll, Operands.isExactly_of]

theorem leads_cons {i : Instr} :
    c.Leads o (i :: code) us ↔ ∃ o', c.check o i = some o' ∧ c.Leads o' code us := by
  simp only [Leads, checkAll, bind, Option.bind_eq_some_iff]
  constructor
  · rintro ⟨last, ⟨o', hi, hcode⟩, hlast⟩
    exact ⟨o', hi, last, hcode, hlast⟩
  · rintro ⟨o', hi, last, hcode, hlast⟩
    exact ⟨last, ⟨o', hi, hcode⟩, hlast⟩

/-- The body of a block, in which a jump to the block takes values of these types along. -/
def LeadsInside (c : Context) (label : List ValType) (t : FuncType) (body : List Instr) : Prop :=
  Leads { c with labels := label :: c.labels } (.of t.params.reverse) body t.results

theorem enclosed_eq_some {label : List ValType} {t : FuncType} {body : List Instr} :
    (((Operands.of ts).popAll t.params).bind fun o =>
      (checkAll { c with labels := label :: c.labels } (.ofTypes t.params) body).bind fun inner =>
        if inner.isExactly t.results then some (o.pushAll t.results) else none) = some o ↔
      ∃ rest, ts = t.params.reverse ++ rest ∧ c.LeadsInside label t body ∧
        o = .of (t.results.reverse ++ rest) := by
  simp only [Option.bind_eq_some_iff, Operands.popAll_of, Operands.ofTypes_eq]
  constructor
  · rintro ⟨_, ⟨rest, rfl, rfl⟩, inner, hbody, h⟩
    split at h
    · rename_i hinner
      cases h
      exact ⟨rest, rfl, ⟨inner, hbody, hinner⟩, Operands.pushAll_of _ _⟩
    · cases h
  · rintro ⟨rest, rfl, ⟨inner, hbody, hinner⟩, rfl⟩
    refine ⟨_, ⟨rest, rfl, rfl⟩, inner, hbody, ?_⟩
    rw [if_pos hinner, Operands.pushAll_of]

theorem check_block {type : BlockType} {body : List Instr} :
    c.check (.of ts) (.block type body) = some o ↔ ∃ t, c.blockType? type = some t ∧ ∃ rest,
      ts = t.params.reverse ++ rest ∧ c.LeadsInside t.results t body ∧
      o = .of (t.results.reverse ++ rest) := by
  simp only [check, bind]
  rw [Option.bind_eq_some_iff]
  simp only [enclosed_eq_some]

theorem check_loop {type : BlockType} {body : List Instr} :
    c.check (.of ts) (.loop type body) = some o ↔ ∃ t, c.blockType? type = some t ∧ ∃ rest,
      ts = t.params.reverse ++ rest ∧ c.LeadsInside t.params t body ∧
      o = .of (t.results.reverse ++ rest) := by
  simp only [check, bind]
  rw [Option.bind_eq_some_iff]
  simp only [enclosed_eq_some]

/-- What decides between two bodies is taken first. -/
theorem check_branch {type : BlockType} {yes no : List Instr}
    (h : c.check (.of ts) (.branch type yes no) = some o) :
    ∃ rest, ts = .i32 :: rest ∧ c.check (.of rest) (.block type yes) = some o ∧
      c.check (.of rest) (.block type no) = some o := by
  simp only [check, bind, Option.bind_eq_some_iff] at h
  obtain ⟨t, ht, _, hpop, o', hparams, first, hyes, second, hno, h⟩ := h
  obtain ⟨rest, rfl, rfl⟩ := Operands.pop_of.1 hpop
  split at h
  · rename_i hexact
    refine ⟨rest, rfl, ?_, ?_⟩
    · simp [check, ht, hparams, hyes, hexact.1, ← h]
    · simp [check, ht, hparams, hno, hexact.2, ← h]
  · cases h

end Context

/-! ## Values -/

/-- The type of a value. -/
def Value.type : Value → ValType
  | .i32 _ => .i32
  | .i64 _ => .i64
  | .f32 _ => .f32
  | .f64 _ => .f64
  | .v128 _ => .v128
  | .funcref _ => .funcref

/-- Nothing is referred to but a function that is there. -/
def Store.Knows (s : Store) (r : Option Nat) : Prop := ∀ a ∈ r, a < s.functions.size

/-- A value of the type, which refers to nothing but a function that is there. -/
inductive Value.Typed (s : Store) : Value → ValType → Prop where
  | i32 (n : UInt32) : Typed s (.i32 n) .i32
  | i64 (n : UInt64) : Typed s (.i64 n) .i64
  | f32 (bits : UInt32) : Typed s (.f32 bits) .f32
  | f64 (bits : UInt64) : Typed s (.f64 bits) .f64
  | v128 (bits : Nat) : Typed s (.v128 bits) .v128
  | funcref {r : Option Nat} (h : s.Knows r) : Typed s (.funcref r) .funcref

/-- Values of these types. -/
abbrev Store.Typed (s : Store) (vs : List Value) (ts : List ValType) : Prop :=
  List.Forall₂ (Value.Typed s) vs ts

theorem Store.knows_none (s : Store) : s.Knows none := nofun

theorem Value.Typed.zero (s : Store) (t : ValType) : (Value.zero t).Typed s t := by
  cases t with
  | i32 => exact .i32 0
  | i64 => exact .i64 0
  | f32 => exact .f32 0
  | f64 => exact .f64 0
  | v128 => exact .v128 0
  | funcref => exact .funcref s.knows_none

theorem Value.Typed.ofBits (s : Store) (t : ValType) (n : Nat) : (Value.ofBits t n).Typed s t := by
  cases t with
  | i32 => exact .i32 _
  | i64 => exact .i64 _
  | f32 => exact .f32 _
  | f64 => exact .f64 _
  | v128 => exact .v128 _
  | funcref => exact .funcref s.knows_none

/-- A value that is no reference is of its own type. -/
theorem Value.Typed.of_type (s : Store) {v : Value} {t : ValType} (h : v.type = t)
    (hf : t ≠ .funcref) : v.Typed s t := by
  subst h
  cases v with
  | i32 n => exact .i32 n
  | i64 n => exact .i64 n
  | f32 n => exact .f32 n
  | f64 n => exact .f64 n
  | v128 n => exact .v128 n
  | funcref r => exact absurd rfl hf

/-! ## Functions, instances and stores -/

/-- Can a function of the host be called at the type? -/
def HostFunction.hasType (f : HostFunction) (t : FuncType) : Bool :=
  match f with
  | .print | .printError | .setMessage => t = ⟨[.i32, .i32], []⟩
  | .handleLength => t = ⟨[.i32], [.i32]⟩
  | .handleRead => t = ⟨[.i32, .i32, .i32], [.i32]⟩
  | .selectionLength => t = ⟨[], [.i32]⟩
  | .selectionGet => t = ⟨[.i32], [.i64]⟩
  | .exit => t.params = [.i32]
  | .nothingThere _ => t.results = [.i32]

/-- A function of the host has its type, and code is well typed in the instance that it is of. -/
inductive Function.Sound (s : Store) : Function → Prop where
  | host {t : FuncType} {f : HostFunction} (h : f.hasType t) : Sound s (.host t f)
  | code {t : FuncType} {owner n : Nat} {code : Code} {i : Instance}
      (hi : s.instances[owner]? = some i) (ht : i.module.types[n]? = some t)
      (hc : i.module.context.isFunction n code) : Sound s (.code t owner code)

/-- An instance has everything that its module speaks of, each of the type that it has there. -/
structure Instance.Sound (s : Store) (i : Instance) : Prop where
  functions (n : Nat) (t : FuncType) (h : i.module.functionType? n = some t) :
    ∃ (a : Nat) (f : Function), i.functions[n]? = some a ∧ s.functions[a]? = some f ∧ f.type = t
  tables (n : Nat) (h : n < i.module.allTables.length) :
    ∃ (a : Nat) (t : TableInstance), i.tables[n]? = some a ∧ s.tables[a]? = some t
  memories (n : Nat) (h : n < i.module.allMemories.length) :
    ∃ (a : Nat) (m : Memory), i.memories[n]? = some a ∧ s.memories[a]? = some m
  globals (n : Nat) (t : GlobalType) (h : i.module.allGlobals[n]? = some t) :
    ∃ (a : Nat) (g : GlobalInstance), i.globals[n]? = some a ∧ s.globals[a]? = some g ∧ g.type = t
  elements : ∀ items ∈ i.elements, ∀ r ∈ items, s.Knows r

/-- Everything in the store is of its type. -/
structure Store.Sound (s : Store) : Prop where
  functions : ∀ f ∈ s.functions, f.Sound s
  tables : ∀ t ∈ s.tables, ∀ r ∈ t.items, s.Knows r
  globals : ∀ g ∈ s.globals, g.value.Typed s g.type.type
  instances : ∀ i ∈ s.instances, i.Sound s

/-! ## What is still of its type -/

/-- Of the same module. -/
def Instance.SameModule (i j : Instance) : Prop := j.module = i.module

theorem Instance.SameModule.refl (i : Instance) : i.SameModule i := rfl

/-- A store that has grown, where instances are of the modules that they were of. -/
structure Store.Extends (s s' : Store) : Prop extends s.Grows s' where
  modules : Kept Instance.SameModule s.instances s'.instances

section

variable {s s' s'' : Store}

namespace Store.Extends

theorem refl (s : Store) : s.Extends s where
  toGrows := .refl s
  modules := .refl Instance.SameModule.refl _

theorem trans (h : s.Extends s') (h' : s'.Extends s'') : s.Extends s'' where
  toGrows := h.toGrows.trans h'.toGrows
  modules := h.modules.trans (fun hi hj => hj.trans hi) h'.modules

theorem size_le (h : s.Extends s') : s.functions.size ≤ s'.functions.size := by
  by_contra hlt
  obtain ⟨_, hf, -⟩ := h.functions s'.functions.size _
    (Array.getElem?_eq_getElem (Nat.lt_of_not_le hlt))
  rw [Array.getElem?_eq_none (Nat.le_refl _)] at hf
  cases hf

end Store.Extends

theorem Store.Knows.mono {r : Option Nat} (hk : s.Knows r) (h : s.Extends s') : s'.Knows r :=
  fun a ha => Nat.lt_of_lt_of_le (hk a ha) h.size_le

theorem Value.Typed.mono {v : Value} {t : ValType} (hv : v.Typed s t) (h : s.Extends s') :
    v.Typed s' t := by
  cases hv with
  | i32 n => exact .i32 n
  | i64 n => exact .i64 n
  | f32 n => exact .f32 n
  | f64 n => exact .f64 n
  | v128 n => exact .v128 n
  | funcref hk => exact .funcref (hk.mono h)

theorem Store.Typed.mono {vs : List Value} {ts : List ValType} (hv : s.Typed vs ts)
    (h : s.Extends s') : s'.Typed vs ts :=
  hv.imp fun _ _ hv => hv.mono h

theorem Function.Sound.mono {f : Function} (hf : f.Sound s) (h : s.Extends s') : f.Sound s' := by
  cases hf with
  | host hf => exact .host hf
  | @code t owner n code i hi ht hc =>
    obtain ⟨j, hj, hm⟩ := h.modules owner i hi
    rw [← (show j.module = i.module from hm)] at ht hc
    exact .code hj ht hc

theorem Instance.Sound.mono {i : Instance} (hi : i.Sound s) (h : s.Extends s') : i.Sound s' where
  functions n t ht := by
    obtain ⟨a, f, ha, hf, rfl⟩ := hi.functions n t ht
    obtain ⟨_, hg, rfl⟩ := h.functions a f hf
    exact ⟨a, f, ha, hg, rfl⟩
  tables n hn := by
    obtain ⟨a, t, ha, ht⟩ := hi.tables n hn
    obtain ⟨u, hu, -⟩ := h.tables a t ht
    exact ⟨a, u, ha, hu⟩
  memories n hn := by
    obtain ⟨a, m, ha, hm⟩ := hi.memories n hn
    obtain ⟨k, hk, -⟩ := h.memories a m hm
    exact ⟨a, k, ha, hk⟩
  globals n t ht := by
    obtain ⟨a, g, ha, hg, rfl⟩ := hi.globals n t ht
    obtain ⟨k, hk, hs⟩ := h.globals a g hg
    exact ⟨a, k, ha, hk, hs⟩
  elements items hm r hr := (hi.elements items hm r hr).mono h

end

/-- What a segment refers to is known; one that is not there is empty. -/
theorem Instance.Sound.segment {s : Store} {i : Instance} (h : i.Sound s) (n : Nat) :
    ∀ r ∈ i.elements.getD n [], s.Knows r := by
  rw [Array.getD_eq_getD_getElem?]
  cases hn : i.elements[n]? with
  | none => simp
  | some items => exact h.elements items (Array.mem_of_getElem? hn)

/-! ## Changing a sound store -/

/-- The second store is sound and has grown from the first. -/
structure Store.Becomes (s s' : Store) : Prop where
  sound : s'.Sound
  grown : s.Extends s'

namespace Store

variable {s s' s'' : Store}

theorem Becomes.trans (h : s.Becomes s') (h' : s'.Becomes s'') : s.Becomes s'' :=
  ⟨h'.sound, h.grown.trans h'.grown⟩

namespace Sound

theorem becomes_self (h : s.Sound) : s.Becomes s := ⟨h, .refl s⟩

/-- In a store that has grown, what is unchanged is as sound as it was. -/
theorem becomes (h : s.Sound) (hg : s.Extends s')
    (functions : ∀ f ∈ s'.functions, f ∈ s.functions ∨ f.Sound s')
    (tables : ∀ t ∈ s'.tables, t ∈ s.tables ∨ ∀ r ∈ t.items, s'.Knows r)
    (globals : ∀ g ∈ s'.globals, g ∈ s.globals ∨ g.value.Typed s' g.type.type)
    (instances : ∀ i ∈ s'.instances, i ∈ s.instances ∨ i.Sound s') : s.Becomes s' where
  grown := hg
  sound :=
    { functions := fun f hf => (functions f hf).elim (fun hf => (h.functions f hf).mono hg) id
      tables := fun t ht =>
        (tables t ht).elim (fun ht r hr => (h.tables t ht r hr).mono hg) id
      globals := fun g hm => (globals g hm).elim (fun hm => (h.globals g hm).mono hg) id
      instances := fun i hi => (instances i hi).elim (fun hi => (h.instances i hi).mono hg) id }

theorem setHost (h : s.Sound) (host : Host) : s.Becomes { s with host } :=
  h.becomes { Grows.setHost s host with modules := .refl Instance.SameModule.refl _ }
    (fun _ => .inl) (fun _ => .inl) (fun _ => .inl) (fun _ => .inl)

theorem setMemory (h : s.Sound) {a : Nat} {m n : Memory} (hm : s.memories[a]? = some m)
    (hg : m.Grows n) : s.Becomes (s.setMemory a n) :=
  h.becomes { Grows.setMemory hm hg with modules := .refl Instance.SameModule.refl _ }
    (fun _ => .inl) (fun _ => .inl) (fun _ => .inl) (fun _ => .inl)

theorem setTable (h : s.Sound) {a : Nat} {t u : TableInstance} (ht : s.tables[a]? = some t)
    (hg : t.Grows u) (hu : ∀ r ∈ u.items, s.Knows r) : s.Becomes (s.setTable a u) := by
  have hext : s.Extends (s.setTable a u) :=
    { Grows.setTable ht hg with modules := .refl Instance.SameModule.refl _ }
  refine h.becomes hext (fun _ => .inl) (fun x hx => ?_) (fun _ => .inl) (fun _ => .inl)
  rcases Array.mem_or_eq_of_mem_setIfInBounds hx with hx | rfl
  · exact .inl hx
  · exact .inr fun r hr => (hu r hr).mono hext

theorem setGlobal (h : s.Sound) {a : Nat} {g : GlobalInstance} {v : Value}
    (hg : s.globals[a]? = some g) (hv : v.Typed s g.type.type) :
    s.Becomes { s with globals := s.globals.setIfInBounds a { g with value := v } } := by
  have hext : s.Extends { s with globals := s.globals.setIfInBounds a { g with value := v } } :=
    { Grows.setGlobal (h := { g with value := v }) hg rfl with
      modules := .refl Instance.SameModule.refl _ }
  refine h.becomes hext (fun _ => .inl) (fun _ => .inl) (fun x hx => ?_) (fun _ => .inl)
  rcases Array.mem_or_eq_of_mem_setIfInBounds hx with hx | rfl
  · exact .inl hx
  · exact .inr (hv.mono hext)

theorem setInstance (h : s.Sound) {o : Nat} {i j : Instance} (hi : s.instances[o]? = some i)
    (hm : i.SameModule j) (he : i.Stays j) (hj : j.Sound s) :
    s.Becomes { s with instances := s.instances.setIfInBounds o j } := by
  have hext : s.Extends { s with instances := s.instances.setIfInBounds o j } :=
    { Grows.setInstance hi he with modules := .set Instance.SameModule.refl hi hm }
  refine h.becomes hext (fun _ => .inl) (fun _ => .inl) (fun _ => .inl) (fun x hx => ?_)
  rcases Array.mem_or_eq_of_mem_setIfInBounds hx with hx | rfl
  · exact .inl hx
  · exact .inr (hj.mono hext)

theorem instance_sound (h : s.Sound) {o : Nat} {i : Instance} (hi : s.instances[o]? = some i) :
    i.Sound s :=
  h.instances i (Array.mem_of_getElem? hi)

/-- Segments can be dropped. -/
theorem dropElements (h : s.Sound) {o : Nat} {i : Instance} (hi : s.instances[o]? = some i)
    (n : Nat) :
    s.Becomes { s with instances :=
      s.instances.setIfInBounds o { i with elements := i.elements.setIfInBounds n [] } } := by
  have hs := h.instance_sound hi
  refine h.setInstance hi rfl rfl { hs with elements := fun items hm => ?_ }
  rcases Array.mem_or_eq_of_mem_setIfInBounds hm with hm | rfl
  · exact hs.elements items hm
  · simp

theorem dropData (h : s.Sound) {o : Nat} {i : Instance} (hi : s.instances[o]? = some i) (n : Nat) :
    s.Becomes { s with instances :=
      s.instances.setIfInBounds o { i with data := i.data.setIfInBounds n [] } } :=
  h.setInstance hi rfl rfl { h.instance_sound hi with }

end Sound

end Store

/-! ## Items of tables -/

namespace TableInstance

variable {t u : TableInstance} {start n : Nat} {items : List (Option Nat)}

theorem mem_of_read? (h : t.read? start n = some items) {r : Option Nat} (hr : r ∈ items) :
    r ∈ t.items := by
  unfold read? at h
  split at h
  · cases h
    exact Array.mem_toList_iff.1 (List.mem_of_mem_drop (List.mem_of_mem_take hr))
  · cases h

theorem mem_of_write? (h : t.write? start items = some u) {r : Option Nat} (hr : r ∈ u.items) :
    r ∈ t.items ∨ r ∈ items := by
  have written : ∀ (xs : List (Option Nat × Nat)) (a : Array (Option Nat)),
      r ∈ xs.foldl (fun a x => a.setIfInBounds x.2 x.1) a → r ∈ a ∨ ∃ x ∈ xs, x.1 = r := by
    intro xs
    induction xs with
    | nil => exact fun a => .inl
    | cons x xs ih =>
      intro a ha
      obtain ha | ⟨y, hy, rfl⟩ := ih _ ha
      · rcases Array.mem_or_eq_of_mem_setIfInBounds ha with ha | rfl
        · exact .inl ha
        · exact .inr ⟨x, by simp, rfl⟩
      · exact .inr ⟨y, List.mem_cons_of_mem _ hy, rfl⟩
  unfold write? at h
  split at h
  · cases h
    obtain hr | ⟨x, hx, rfl⟩ := written _ _ hr
    · exact .inl hr
    · exact .inr (List.fst_mem_of_mem_zipIdx hx)
  · cases h

theorem mem_of_grow? {item : Option Nat} (h : t.grow? n item = some u) {r : Option Nat}
    (hr : r ∈ u.items) : r ∈ t.items ∨ r = item := by
  unfold grow? at h
  split at h
  · cases h
    rcases Array.mem_append.1 hr with hr | hr
    · exact .inl hr
    · exact .inr (Array.mem_replicate.1 hr).2
  · cases h

end TableInstance

/-- What is written to a table of an instance may be anything that is known. -/
theorem Store.Sound.writeTable {s : Store} (hs : s.Sound) {i : Instance} {n a start : Nat}
    {t u : TableInstance} {items : List (Option Nat)} (ht : s.table? i n = some (a, t))
    (hw : t.write? start items = some u) (hk : ∀ r ∈ items, s.Knows r) :
    s.Becomes (s.setTable a u) := by
  have ht := table?_eq_some ht
  refine hs.setTable ht (TableInstance.write?_grows hw) fun r hr => ?_
  obtain hr | hr := TableInstance.mem_of_write? hw hr
  · exact hs.tables t (Array.mem_of_getElem? ht) r hr
  · exact hk r hr

end ScriptHost.Wasm

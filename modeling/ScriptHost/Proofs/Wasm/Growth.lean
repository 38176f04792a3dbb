import ScriptHost.Proofs.Wasm.Memory
import ScriptHost.Wasm.Linking

/-!
# What running code leaves as it was

A store grows (`Store.Grows`): whatever code runs, what stood at a place stands there afterwards.
Functions are the same, tables and memories are not smaller and have the limit they had, globals
have their type and instances export what they exported. One step keeps this (`Machine.step_grows`),
and so does a whole run, ended in whatever way (`Store.call_grows`).

All that a step does to the store is told once (`Machine.step_does`): what one instruction does
(`Store.Touched`), and then the request that it makes to the host, if it makes one (`Request`).
-/

namespace ScriptHost.Wasm

/-! ## Places that stay -/

/-- Whatever stands at a place of the first array has something related at that place of the
second. -/
def Kept {α : Type} (R : α → α → Prop) (xs ys : Array α) : Prop :=
  ∀ (a : Nat) x, xs[a]? = some x → ∃ y, ys[a]? = some y ∧ R x y

namespace Kept

variable {α : Type} {R : α → α → Prop} {xs ys zs : Array α}

theorem refl (hR : ∀ x, R x x) (xs : Array α) : Kept R xs xs :=
  fun _ x hx => ⟨x, hx, hR x⟩

theorem trans (hR : ∀ {x y z}, R x y → R y z → R x z) (h : Kept R xs ys) (h' : Kept R ys zs) :
    Kept R xs zs := by
  intro a x hx
  obtain ⟨y, hy, hxy⟩ := h a x hx
  obtain ⟨z, hz, hyz⟩ := h' a y hy
  exact ⟨z, hz, hR hxy hyz⟩

theorem set (hR : ∀ x, R x x) {a : Nat} {x y : α} (hx : xs[a]? = some x) (hxy : R x y) :
    Kept R xs (xs.setIfInBounds a y) := by
  intro b z hz
  by_cases hb : a = b
  · subst hb
    rw [hx] at hz
    cases hz
    have hlt : a < xs.size := (Array.getElem?_eq_some_iff.1 hx).1
    exact ⟨y, by rw [Array.getElem?_setIfInBounds_self_of_lt hlt], hxy⟩
  · exact ⟨z, by rw [Array.getElem?_setIfInBounds_ne hb, hz], hR z⟩

theorem append (hR : ∀ x, R x x) (xs more : Array α) : Kept R xs (xs ++ more) := by
  intro a x hx
  have hlt : a < xs.size := (Array.getElem?_eq_some_iff.1 hx).1
  exact ⟨x, by rw [Array.getElem?_append_left hlt, hx], hR x⟩

theorem push (hR : ∀ x, R x x) (xs : Array α) (x : α) : Kept R xs (xs.push x) := by
  rw [Array.push_eq_append]
  exact append hR xs #[x]

end Kept

/-! ## Tables, memories and stores that grow -/

/-- No smaller, and of the same limit. -/
def TableInstance.Grows (t u : TableInstance) : Prop := t.items.size ≤ u.items.size ∧ u.max = t.max

def Memory.Grows (m n : Memory) : Prop := m.pages ≤ n.pages ∧ n.max = m.max

/-- Of the same type. -/
def GlobalInstance.Stays (g h : GlobalInstance) : Prop := h.type = g.type

/-- With the same exports. -/
def Instance.Stays (i j : Instance) : Prop := j.exports = i.exports

theorem TableInstance.Grows.refl (t : TableInstance) : t.Grows t := ⟨Nat.le_refl _, rfl⟩

theorem TableInstance.Grows.trans {t u v : TableInstance} (h : t.Grows u) (h' : u.Grows v) :
    t.Grows v :=
  ⟨Nat.le_trans h.1 h'.1, h'.2.trans h.2⟩

theorem Memory.Grows.refl (m : Memory) : m.Grows m := ⟨Nat.le_refl _, rfl⟩

theorem Memory.Grows.trans {m n o : Memory} (h : m.Grows n) (h' : n.Grows o) : m.Grows o :=
  ⟨Nat.le_trans h.1 h'.1, h'.2.trans h.2⟩

theorem GlobalInstance.Stays.refl (g : GlobalInstance) : g.Stays g := rfl

theorem Instance.Stays.refl (i : Instance) : i.Stays i := rfl

/-- Everything stays at its place with the type it had, but tables and memories may be greater. -/
structure Store.Grows (s t : Store) : Prop where
  functions : Kept (· = ·) s.functions t.functions
  tables : Kept TableInstance.Grows s.tables t.tables
  memories : Kept Memory.Grows s.memories t.memories
  globals : Kept GlobalInstance.Stays s.globals t.globals
  instances : Kept Instance.Stays s.instances t.instances

namespace Store.Grows

variable {s t u : Store}

theorem refl (s : Store) : s.Grows s where
  functions := .refl (fun _ => rfl) _
  tables := .refl TableInstance.Grows.refl _
  memories := .refl Memory.Grows.refl _
  globals := .refl GlobalInstance.Stays.refl _
  instances := .refl Instance.Stays.refl _

theorem trans (h : s.Grows t) (h' : t.Grows u) : s.Grows u where
  functions := h.functions.trans Eq.trans h'.functions
  tables := h.tables.trans TableInstance.Grows.trans h'.tables
  memories := h.memories.trans Memory.Grows.trans h'.memories
  globals := h.globals.trans (fun hg hh => hh.trans hg) h'.globals
  instances := h.instances.trans (fun hi hj => hj.trans hi) h'.instances

theorem setHost (s : Store) (host : Host) : s.Grows { s with host } :=
  { refl s with }

theorem setTable {a : Nat} {x y : TableInstance} (hx : s.tables[a]? = some x) (h : x.Grows y) :
    s.Grows (s.setTable a y) :=
  { refl s with tables := .set TableInstance.Grows.refl hx h }

theorem setMemory {a : Nat} {m n : Memory} (hm : s.memories[a]? = some m) (h : m.Grows n) :
    s.Grows (s.setMemory a n) :=
  { refl s with memories := .set Memory.Grows.refl hm h }

theorem setGlobal {a : Nat} {g h : GlobalInstance} (hg : s.globals[a]? = some g)
    (ht : g.Stays h) : s.Grows { s with globals := s.globals.setIfInBounds a h } :=
  { refl s with globals := .set GlobalInstance.Stays.refl hg ht }

theorem setInstance {o : Nat} {i j : Instance} (hi : s.instances[o]? = some i)
    (he : i.Stays j) : s.Grows { s with instances := s.instances.setIfInBounds o j } :=
  { refl s with instances := .set Instance.Stays.refl hi he }

end Store.Grows

/-! ## Tables and memories -/

theorem TableInstance.write?_grows {t u : TableInstance} {start : Nat} {items : List (Option Nat)}
    (h : t.write? start items = some u) : t.Grows u := by
  have size : ∀ (xs : List (Option Nat × Nat)) (a : Array (Option Nat)),
      (xs.foldl (fun a x => a.setIfInBounds x.2 x.1) a).size = a.size := by
    intro xs
    induction xs with
    | nil => exact fun _ => rfl
    | cons x rest ih => exact fun a => (ih _).trans (Array.size_setIfInBounds ..)
  rw [TableInstance.write?] at h
  split at h
  · cases h
    exact ⟨Nat.le_of_eq (size ..).symm, rfl⟩
  · cases h

theorem TableInstance.grow?_grows {t u : TableInstance} {n : Nat} {item : Option Nat}
    (h : t.grow? n item = some u) : t.Grows u := by
  rw [TableInstance.grow?] at h
  split at h
  · cases h
    exact ⟨by simp, rfl⟩
  · cases h

theorem Memory.put_grows (m : Memory) (address : Nat) (bytes : List UInt8) :
    m.Grows (m.put address bytes) := by
  induction bytes generalizing m address with
  | nil => exact .refl m
  | cons b rest ih => exact ih { m with cells := m.cells.insert address b } (address + 1)

theorem Memory.write?_grows {m n : Memory} {address : Nat} {bytes : List UInt8}
    (h : m.write? address bytes = some n) : m.Grows n := by
  rw [Memory.write?] at h
  split at h
  · cases h
    exact m.put_grows address bytes
  · cases h

theorem Memory.grow?_grows {m n : Memory} {pages : Nat} (h : m.grow? pages = some n) :
    m.Grows n := by
  rw [Memory.grow?] at h
  split at h
  · cases h
    exact ⟨Nat.le_add_right .., rfl⟩
  · cases h

theorem Store.memory?_eq_some {s : Store} {i : Instance} {n a : Nat} {m : Memory}
    (h : s.memory? i n = some (a, m)) : s.memories[a]? = some m := by
  simp only [Store.memory?, Option.bind_eq_bind, Option.bind_eq_some_iff, Option.pure_def,
    Option.some.injEq, Prod.mk.injEq] at h
  obtain ⟨_, _, _, hm, rfl, rfl⟩ := h
  exact hm

theorem Store.table?_eq_some {s : Store} {i : Instance} {n a : Nat} {t : TableInstance}
    (h : s.table? i n = some (a, t)) : s.tables[a]? = some t := by
  simp only [Store.table?, Option.bind_eq_bind, Option.bind_eq_some_iff, Option.pure_def,
    Option.some.injEq, Prod.mk.injEq] at h
  obtain ⟨_, _, _, ht, rfl, rfl⟩ := h
  exact ht

/-! ## Single instructions -/

/-- All that an instruction does to the store: nothing, or a change of one memory, table, global or
instance. -/
inductive Store.Touched (s : Store) : Store → Prop where
  | nothing : s.Touched s
  | memory {a : Nat} {m n : Memory} (hm : s.memories[a]? = some m) (h : m.Grows n) :
    s.Touched (s.setMemory a n)
  | table {a : Nat} {t u : TableInstance} (ht : s.tables[a]? = some t) (h : t.Grows u) :
    s.Touched (s.setTable a u)
  | global {a : Nat} {g k : GlobalInstance} (hg : s.globals[a]? = some g) (h : g.Stays k) :
    s.Touched { s with globals := s.globals.setIfInBounds a k }
  | segments {o : Nat} {i j : Instance} (hi : s.instances[o]? = some i) (h : i.Stays j) :
    s.Touched { s with instances := s.instances.setIfInBounds o j }

namespace Store.Touched

variable {s s' : Store}

theorem grows (h : s.Touched s') : s.Grows s' := by
  cases h with
  | nothing => exact .refl s
  | memory hm h => exact .setMemory hm h
  | table ht h => exact .setTable ht h
  | global hg h => exact .setGlobal hg h
  | segments hi h => exact .setInstance hi h

theorem host_eq (h : s.Touched s') : s'.host = s.host := by
  cases h <;> rfl

end Store.Touched

/-- If the instruction goes on, that is all it has done to the store. -/
def Effect.Touches (s : Store) (e : Effect) : Prop := ∀ s' f x, e = .ok (s', f, x) → s.Touched s'

namespace Effect.Touches

variable {α : Type} {s s' : Store} {f : Frame} {x : Transfer} {a : Option α} {k : α → Effect}

theorem ok (h : s.Touched s') : Effect.Touches s (.ok (s', f, x)) := by
  rintro _ _ _ ⟨⟩
  exact h

theorem next (h : s.Touched s') : Effect.Touches s (Effect.next s' f) := ok h

theorem trap (t : Trap) : Effect.Touches s (Effect.trap t) := nofun

theorem stuck : Effect.Touches s Effect.stuck := nofun

theorem having (h : ∀ v, a = some v → Effect.Touches s (k v)) :
    Effect.Touches s (Effect.having a k) := by
  cases a with
  | none => exact stuck
  | some v => exact h v rfl

theorem orTrap {t : Trap} (h : ∀ v, a = some v → Effect.Touches s (k v)) :
    Effect.Touches s (Effect.orTrap t a k) := by
  cases a with
  | none => exact trap t
  | some v => exact h v rfl

end Effect.Touches

section

variable {s : Store} {f : Frame} {i : Instance}

open Effect.Touches

theorem memoryEffect_touches (hi : s.instances[f.owner]? = some i) (op : Basic) :
    (memoryEffect s i f op).Touches s := by
  unfold memoryEffect
  split
  case h_1 => -- load
    refine having fun (a, m) _ => ?_
    dsimp only
    split
    · exact next .nothing
    · exact trap _
  case h_2 => -- store
    refine having fun (a, m) hm => ?_
    dsimp only
    split
    · rename_i hw
      exact next (.memory (Store.memory?_eq_some hm) (Memory.write?_grows hw))
    · exact trap _
  case h_3 => -- memory.size
    exact having fun _ _ => next .nothing
  case h_4 => -- memory.grow
    refine having fun (a, m) hm => ?_
    dsimp only
    split
    · rename_i hg
      exact next (.memory (Store.memory?_eq_some hm) (Memory.grow?_grows hg))
    · exact next .nothing
  case h_5 => -- memory.init
    refine having fun (a, m) hm => ?_
    dsimp only
    split
    · refine orTrap fun n hw => ?_
      exact next (.memory (Store.memory?_eq_some hm) (Memory.write?_grows hw))
    · exact trap _
  case h_6 => -- memory.copy
    refine having fun (a, m) hm => having fun _ _ => orTrap fun _ _ => orTrap fun n hw => ?_
    exact next (.memory (Store.memory?_eq_some hm) (Memory.write?_grows hw))
  case h_7 => -- memory.fill
    refine having fun (a, m) hm => ?_
    dsimp only
    split
    · exact next (.memory (Store.memory?_eq_some hm) (m.put_grows _ _))
    · exact trap _
  case h_8 => -- data.drop
    apply next
    exact .segments hi rfl
  case h_9 => exact stuck

theorem tableEffect_touches (hi : s.instances[f.owner]? = some i) (op : Basic) :
    (tableEffect s i f op).Touches s := by
  unfold tableEffect
  split
  case h_1 => -- table.get
    exact having fun _ _ => orTrap fun _ _ => next .nothing
  case h_2 => -- table.set
    refine having fun (a, t) ht => orTrap fun u hw => ?_
    exact next (.table (Store.table?_eq_some ht) (TableInstance.write?_grows hw))
  case h_3 => -- table.size
    exact having fun _ _ => next .nothing
  case h_4 => -- table.grow
    refine having fun (a, t) ht => ?_
    dsimp only
    split
    · rename_i hg
      exact next (.table (Store.table?_eq_some ht) (TableInstance.grow?_grows hg))
    · exact next .nothing
  case h_5 => -- table.fill
    refine having fun (a, t) ht => ?_
    dsimp only
    split
    · refine orTrap fun u hw => ?_
      exact next (.table (Store.table?_eq_some ht) (TableInstance.write?_grows hw))
    · exact trap _
  case h_6 => -- table.init
    refine having fun (a, t) ht => ?_
    dsimp only
    split
    · refine orTrap fun u hw => ?_
      exact next (.table (Store.table?_eq_some ht) (TableInstance.write?_grows hw))
    · exact trap _
  case h_7 => -- table.copy
    refine having fun (a, t) ht => having fun _ _ => orTrap fun _ _ => orTrap fun u hw => ?_
    exact next (.table (Store.table?_eq_some ht) (TableInstance.write?_grows hw))
  case h_8 => -- elem.drop
    apply next
    exact .segments hi rfl
  case h_9 => exact stuck

/-- An operator takes one or two numbers off the stack. -/
theorem numericEffect_touches (f : Frame) (op : Numeric) :
    (effect s i f (.numeric op)).Touches s := by
  obtain ⟨owner, locals, arity, labels, code, stack⟩ := f
  unfold effect
  dsimp only
  split
  case h_1 => -- of one number
    split
    · exact next .nothing
    · exact trap _
  case h_2 => -- of two numbers
    split
    · exact next .nothing
    · exact trap _
  case h_3 => exact stuck

/-- What an instruction without a body does to the store. -/
theorem effect_touches (hi : s.instances[f.owner]? = some i) (op : Basic) :
    (effect s i f op).Touches s := by
  obtain ⟨owner, locals, arity, labels, code, stack⟩ := f
  cases op with
  | unreachable => exact trap _
  | nop | i32 _ | i64 _ | f32 _ | f64 _ | refNull => exact next .nothing
  | br _ | leave => exact ok .nothing
  | call _ => exact having fun _ _ => ok .nothing
  | localGet _ | globalGet _ | refFunc _ => exact having fun _ _ => next .nothing
  | drop | localSet _ | localTee _ =>
    obtain _ | ⟨v, rest⟩ := stack
    · exact stuck
    · exact next .nothing
  | globalSet _ =>
    obtain _ | ⟨v, rest⟩ := stack
    · exact stuck
    · exact having fun _ _ => having fun _ hg => next (.global hg rfl)
  | refIsNull =>
    obtain _ | ⟨_ | _ | _ | _ | r, rest⟩ := stack
    case cons.funcref => exact next .nothing
    all_goals exact stuck
  | select _ =>
    obtain _ | ⟨c | _ | _ | _ | _, _ | ⟨b, _ | ⟨a, rest⟩⟩⟩ := stack
    case cons.i32.cons.cons => exact next .nothing
    all_goals exact stuck
  | brIf _ | brTable _ _ =>
    obtain _ | ⟨c | _ | _ | _ | _, rest⟩ := stack
    case cons.i32 => exact ok .nothing
    all_goals exact stuck
  | callIndirect type table =>
    obtain _ | ⟨k | _ | _ | _ | _, rest⟩ := stack
    case cons.i32 =>
      unfold effect
      dsimp only
      split
      · exact ok .nothing
      · rintro _ _ _ ⟨⟩
    all_goals exact stuck
  | numeric op => exact numericEffect_touches _ op
  | tableGet _ | tableSet _ | tableInit _ _ | elementsDrop _ | tableCopy _ _ | tableGrow _
  | tableSize _ | tableFill _ =>
    unfold effect
    exact tableEffect_touches hi _
  | load _ _ | store _ _ | memorySize _ | memoryGrow _ | memoryInit _ _ | dataDrop _
  | memoryCopy _ _ | memoryFill _ =>
    unfold effect
    exact memoryEffect_touches hi _

end

/-! ## Calls of the host -/

/-- A function of the host is called with what it is for. -/
inductive HostFunction.Takes : HostFunction → List Value → Prop where
  | print (ptr len : UInt32) : Takes .print [.i32 ptr, .i32 len]
  | printError (ptr len : UInt32) : Takes .printError [.i32 ptr, .i32 len]
  | setMessage (ptr len : UInt32) : Takes .setMessage [.i32 ptr, .i32 len]
  | handleLength (id : UInt32) : Takes .handleLength [.i32 id]
  | handleRead (id ptr len : UInt32) : Takes .handleRead [.i32 id, .i32 ptr, .i32 len]
  | selectionLength : Takes .selectionLength []
  | selectionGet (i : UInt32) : Takes .selectionGet [.i32 i]
  | exit (status : UInt32) : Takes .exit [.i32 status]
  | nothingThere (zeros : Nat) (args : List Value) : Takes (.nothingThere zeros) args

/-- With anything else the code that calls it is stuck. -/
theorem HostFunction.takes_or_stuck (memory : Option Memory) (f : HostFunction)
    (args : List Value) : f.Takes args ∨ ∀ h : Host, h.call memory f args = .error .stuck := by
  cases f with
  | print | printError | setMessage =>
    obtain _ | ⟨ptr | _ | _ | _ | _, _ | ⟨len | _ | _ | _ | _, _ | _⟩⟩ := args
    case cons.i32.cons.i32.nil => exact .inl (by constructor)
    all_goals exact .inr fun _ => rfl
  | handleLength | selectionGet | exit =>
    obtain _ | ⟨id | _ | _ | _ | _, _ | _⟩ := args
    case cons.i32.nil => exact .inl (by constructor)
    all_goals exact .inr fun _ => rfl
  | handleRead =>
    obtain _ | ⟨id | _ | _ | _ | _, _ | ⟨ptr | _ | _ | _ | _, _ | ⟨len | _ | _ | _ | _, _ | _⟩⟩⟩ :=
      args
    case cons.i32.cons.i32.cons.i32.nil => exact .inl (.handleRead id ptr len)
    all_goals exact .inr fun _ => rfl
  | selectionLength =>
    cases args with
    | nil => exact .inl .selectionLength
    | cons => exact .inr fun _ => rfl
  | nothingThere zeros => exact .inl (.nothingThere zeros args)

theorem Host.writeBytes_grows {memory : Option Memory} {ptr capacity n : UInt32}
    {bytes : List UInt8} {after : Memory}
    (h : Host.writeBytes memory ptr capacity bytes = some (n, some after)) :
    ∃ before, memory = some before ∧ before.Grows after := by
  simp only [Host.writeBytes, Option.bind_eq_bind, Option.bind_eq_some_iff] at h
  obtain ⟨_, -, h⟩ := h
  split at h
  · cases h
    exact ⟨after, rfl, .refl after⟩
  · simp only [Option.bind_eq_some_iff] at h
    obtain ⟨_, -, before, hb, changed, hw, h⟩ := h
    cases h
    exact ⟨before, hb, Memory.write?_grows hw⟩

theorem Host.zerosAt_grows (memory : Memory) (addresses : List UInt32) :
    memory.Grows (Host.zerosAt memory addresses).1 := by
  induction addresses generalizing memory with
  | nil => exact .refl memory
  | cons address rest ih =>
    rw [Host.zerosAt]
    split
    · rename_i hw
      exact (Memory.write?_grows hw).trans (ih _)
    · exact .refl memory

theorem Host.handleRead_grows {h : Host} {memory : Option Memory} {id ptr len answer : UInt32}
    {after : Memory} (hr : h.handleRead memory id ptr len = (answer, some after)) :
    ∃ before, memory = some before ∧ before.Grows after := by
  rw [Host.handleRead] at hr
  split at hr
  · rename_i found he
    obtain ⟨text, -, hw⟩ := Option.bind_eq_some_iff.1 he
    subst hr
    exact Host.writeBytes_grows hw
  · exact ⟨after, (Prod.mk.inj hr).2, .refl after⟩

/-- What a function of the host has done: it has heard a text, or left the state of the host as it
was, and the memory is the one it was given, perhaps with other bytes. -/
def Host.Done (h : Host) (memory : Option Memory) (g : HostFunction) (args : List Value)
    (h' : Host) (after : Option Memory) : Prop :=
  (h' = h ∨ ∃ ptr len text, args = [.i32 ptr, .i32 len] ∧
    Passes memory (signed ptr) (signed len) text ∧ h.Hears text g h') ∧
    ∀ n, after = some n → ∃ m, memory = some m ∧ m.Grows n

section

variable {h h' : Host} {memory after : Option Memory} {g : HostFunction}
  {args results results' : List Value}

theorem Host.Done.of_same
    (hc : Except.ok (h, memory, results') = (.ok (h', after, results) : Except Stop _)) :
    h.Done memory g args h' after := by
  cases hc
  exact ⟨.inl rfl, fun n hn => ⟨n, hn, .refl n⟩⟩

theorem Host.Done.of_text (hg : g ∈ HostFunction.hearing) {ptr len : UInt32}
    (hc : h.call memory g [.i32 ptr, .i32 len] = .ok (h', after, results)) :
    h.Done memory g [.i32 ptr, .i32 len] h' after := by
  obtain ⟨text, heard, hpasses, hhears, hcall⟩ | ⟨-, hcall⟩ := h.call_text memory hg ptr len
  · rw [hcall] at hc
    cases hc
    exact ⟨.inr ⟨ptr, len, text, rfl, hpasses, hhears⟩, fun n hn => ⟨n, hn, .refl n⟩⟩
  · exact .of_same (hcall.symm.trans hc)

/-- All that a function of the host does: it hears a text, or leaves the state of the host as it was,
and it gives back the memory it was given, perhaps with other bytes. -/
theorem Host.call_cases (hc : h.call memory g args = .ok (h', after, results)) :
    (h' = h ∨ ∃ ptr len text, args = [.i32 ptr, .i32 len] ∧
      Passes memory (signed ptr) (signed len) text ∧ h.Hears text g h') ∧
      ∀ n, after = some n → ∃ m, memory = some m ∧ m.Grows n := by
  show h.Done memory g args h' after
  obtain ht | hstuck := g.takes_or_stuck memory args
  · cases ht with
    | print | printError | setMessage => exact .of_text (by decide) hc
    | handleLength | selectionLength | selectionGet => exact .of_same hc
    | handleRead =>
      unfold Host.call at hc
      dsimp only at hc
      simp only [Except.ok.injEq, Prod.mk.injEq] at hc
      obtain ⟨hhost, rfl, -⟩ := hc
      exact ⟨.inl hhost.symm, fun n hn => Host.handleRead_grows (Prod.ext rfl hn)⟩
    | exit =>
      unfold Host.call at hc
      dsimp only at hc
      repeat' split at hc
      all_goals cases hc
    | nothingThere zeros =>
      cases memory with
      | none => cases hc
      | some before =>
        unfold Host.call at hc
        dsimp only at hc
        split at hc
        · exact .of_same hc
        · cases hc
          refine ⟨.inl rfl, fun n hn => ⟨before, rfl, ?_⟩⟩
          cases hn
          exact Host.zerosAt_grows _ _
  · cases (hstuck h).symm.trans hc

end

/-! ## Steps and runs -/

/-- The store that a run leaves behind. -/
def Ended.store : Ended → Store
  | .values s _ => s
  | .stopped s _ _ => s

/-- A request to the host: the store that it is made in, the instance that makes it, if one does,
the function and its arguments. -/
structure Request where
  store : Store
  caller : Option Nat
  function : HostFunction
  args : List Value

/-- The store after a request. One that fails leaves it as it was. -/
def Request.after (r : Request) : Store :=
  match Machine.callHost r.store r.caller r.function r.args with
  | .ok (s, _) => s
  | .error _ => r.store

/-- What a step does to the store, and the request that it makes: what one instruction does comes
first. -/
inductive Store.Does (s : Store) : Option Request → Store → Prop where
  | alone {t : Store} (h : s.Touched t) : s.Does none t
  | asking {r : Request} (h : s.Touched r.store) : s.Does (some r) r.after

/-- The request that a frame makes when it calls a function. -/
def Frame.request? (f : Frame) (s : Store) (address : Nat) : Option Request :=
  match s.functions[address]? with
  | some (.host type h) => some ⟨s, some f.owner, h, (f.stack.take type.params.length).reverse⟩
  | _ => none

namespace Machine

/-- The request that the next step makes, if it makes one. -/
def request? (m : Machine) : Option Request :=
  match m.frames with
  | [] => none
  | f :: _ =>
    match f.code with
    | .basic op :: after =>
      match m.store.instances[f.owner]? with
      | none => none
      | some i =>
        match effect m.store i { f with code := after } op with
        | .ok (s, f, .call address) => f.request? s address
        | _ => none
    | _ => none

/-- The store after a step. -/
def storeAfter : Machine ⊕ Ended → Store
  | .inl m => m.store
  | .inr ended => ended.store

/-- The store after a call has begun, or could not begin. -/
def storeCalled : Except (Store × Stop) Machine → Store
  | .ok m => m.store
  | .error (s, _) => s

theorem callHost_grows {s s' : Store} {caller : Option Nat} {g : HostFunction}
    {args results : List Value} (h : callHost s caller g args = .ok (s', results)) :
    s.Grows s' := by
  unfold callHost at h
  dsimp only at h
  split at h
  · cases h
  · rename_i hc
    split at h
    · rename_i address memory _ _ ha
      cases h
      rw [ha] at hc
      obtain ⟨before, hb, hg⟩ := (Host.call_cases hc).2 _ rfl
      exact .trans (.setHost s _) (.setMemory hb hg)
    · cases h
      exact .setHost s _

theorem request_grows (r : Request) : r.store.Grows r.after := by
  unfold Request.after
  split
  · rename_i h
    exact callHost_grows h
  · exact .refl _

theorem call_does {s₀ s : Store} (h : s₀.Touched s) (f : Frame) (rest : List Frame)
    (depth address : Nat) :
    s₀.Does (f.request? s address) (storeCalled (call s f rest depth address)) := by
  unfold call Frame.request?
  cases s.functions[address]? with
  | none => exact .alone h
  | some target =>
    cases target with
    | host type g =>
      have hasked :=
        Store.Does.asking (r := ⟨s, some f.owner, g, (f.stack.take type.params.length).reverse⟩) h
      unfold Request.after at hasked
      dsimp only [Function.type] at hasked ⊢
      cases hc : callHost s (some f.owner) g (f.stack.take type.params.length).reverse <;>
        rw [hc] at hasked <;> exact hasked
    | code type owner code =>
      dsimp only
      split <;> exact .alone h

theorem leave_store (s : Store) (f : Frame) (rest : List Frame) (depth : Nat) :
    storeAfter (leave s f rest depth) = s := by
  cases rest <;> rfl

/-- A step does what one instruction does, and makes its request then if there is one. -/
theorem step_does (m : Machine) : m.store.Does m.request? (storeAfter m.step) := by
  obtain ⟨s, _ | ⟨⟨owner, locals, arity, labels, code, stack⟩, rest⟩, depth⟩ := m
  · exact .alone .nothing
  obtain _ | ⟨instr, after⟩ := code
  · -- the end of a block or of the call
    obtain _ | ⟨l, labels⟩ := labels
    · refine .alone ?_
      rw [show step _ = leave s _ rest depth from rfl, leave_store]
      exact .nothing
    · exact .alone .nothing
  unfold step request?
  dsimp only
  cases hi : s.instances[owner]? with
  | none => cases instr <;> exact .alone .nothing
  | some i =>
    cases instr with
    | block type body | loop type body =>
      dsimp only
      split <;> exact .alone .nothing
    | branch type yes no =>
      dsimp only
      split
      · split <;> exact .alone .nothing
      · exact .alone .nothing
    | basic op =>
      dsimp only
      have he := effect_touches (f := ⟨owner, locals, arity, labels, after, stack⟩) hi op
      rcases heffect : effect s i ⟨owner, locals, arity, labels, after, stack⟩ op with
        e | ⟨s', f, x⟩
      · exact .alone .nothing
      · have ht := he s' f x heffect
        cases x with
        | advance => exact .alone ht
        | leave => exact .alone ((leave_store s' f rest depth).symm ▸ ht)
        | jump n =>
          refine .alone ?_
          dsimp only
          split
          · exact (leave_store s' f rest depth).symm ▸ ht
          · split <;> exact ht
        | call address =>
          have hc := call_does ht f rest depth address
          dsimp only
          split
          · rename_i hcalled
            rw [hcalled] at hc
            exact hc
          · rename_i hcalled
            rw [hcalled] at hc
            exact hc

/-- A step lets the store grow. -/
theorem step_grows (m : Machine) : m.store.Grows (storeAfter m.step) := by
  have hdoes := m.step_does
  generalize m.request? = request, storeAfter m.step = s at hdoes
  cases hdoes with
  | alone h => exact h.grows
  | asking h => exact h.grows.trans (request_grows _)

/-- A run lets the store grow, ended in whatever way. -/
theorem run_grows (fuel : Nat) (m : Machine) : m.store.Grows (run fuel m).store := by
  induction fuel generalizing m with
  | zero => exact .refl _
  | succ n ih =>
    have hs := m.step_grows
    rw [run]
    split
    · rename_i h
      rw [h] at hs
      exact hs.trans (ih _)
    · rename_i h
      rw [h] at hs
      exact hs

end Machine

/-- **Stores grow.** Calling a function never takes anything away that others may refer to. -/
theorem Store.call_grows (s : Store) (address : Nat) (args : List Value) :
    s.Grows (s.call address args).store := by
  unfold Store.call
  split
  · exact .refl s
  · split
    · rename_i h
      exact Machine.callHost_grows h
    · exact .refl s
  · rename_i type owner code _
    exact Machine.run_grows Machine.fuel ⟨s, [Machine.frameOf type owner code args], 1⟩

end ScriptHost.Wasm

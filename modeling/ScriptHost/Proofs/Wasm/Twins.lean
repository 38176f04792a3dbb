import Mathlib.Data.List.Forall2
import Mathlib.Logic.Relator
import ScriptHost.Proofs.Wasm.Instructions

/-!
# Stores that are alike

Two stores are twins if what stands at places of the one that are paired with places of the other
is the same there, but for the places that it refers to (`Store.Twins`). Places of the second store
that are paired with none hold what they held in some store at the beginning. One instruction keeps
twins twins (`effect_twins`).
-/

namespace ScriptHost.Wasm

/-! ## Lists and arrays that go together -/

section

variable {α β : Type} {R : α → β → Prop}

theorem forall₂_getElem? {xs : List α} {ys : List β} (h : List.Forall₂ R xs ys) (n : Nat) :
    Option.Rel R xs[n]? ys[n]? := by
  induction h generalizing n with
  | nil => exact .none
  | cons hd _ ih =>
    cases n with
    | zero => exact .some hd
    | succ n => exact ih n

theorem forall₂_lookup {κ : Type} [BEq κ] {xs : List (κ × α)} {ys : List (κ × β)}
    (h : List.Forall₂ (fun d e => e.1 = d.1 ∧ R d.2 e.2) xs ys) (key : κ) :
    Option.Rel R (xs.lookup key) (ys.lookup key) := by
  induction h with
  | nil => exact .none
  | @cons d e _ _ hd _ ih =>
    obtain ⟨name, x⟩ := d
    obtain ⟨name', y⟩ := e
    obtain ⟨hname, hxy⟩ := hd
    dsimp only at hname hxy
    rw [List.lookup_cons, List.lookup_cons, hname]
    cases key == name with
    | true => exact .some hxy
    | false => exact ih

theorem forall₂_set {xs : List α} {ys : List β} {x : α} {y : β} (h : List.Forall₂ R xs ys)
    (hxy : R x y) (n : Nat) : List.Forall₂ R (xs.set n x) (ys.set n y) := by
  induction h generalizing n with
  | nil => exact .nil
  | cons hd tl ih =>
    cases n with
    | zero => exact .cons hxy tl
    | succ n => exact .cons hd (ih n)

theorem forall₂_replicate {x : α} {y : β} (hxy : R x y) (n : Nat) :
    List.Forall₂ R (List.replicate n x) (List.replicate n y) := by
  induction n with
  | zero => exact .nil
  | succ n ih => exact .cons hxy ih

/-- Arrays of one size whose items go together. -/
def Aligned (R : α → β → Prop) (xs : Array α) (ys : Array β) : Prop :=
  List.Forall₂ R xs.toList ys.toList

namespace Aligned

variable {xs : Array α} {ys : Array β} {x : α} {y : β}

theorem size_eq (h : Aligned R xs ys) : xs.size = ys.size := h.length_eq

theorem getElem? (h : Aligned R xs ys) (n : Nat) : Option.Rel R xs[n]? ys[n]? := by
  rw [← Array.getElem?_toList, ← Array.getElem?_toList]
  exact forall₂_getElem? h n

theorem setIfInBounds (h : Aligned R xs ys) (hxy : R x y) (n : Nat) :
    Aligned R (xs.setIfInBounds n x) (ys.setIfInBounds n y) := by
  rw [Aligned, Array.toList_setIfInBounds, Array.toList_setIfInBounds]
  exact forall₂_set h hxy n

theorem append {xs' : Array α} {ys' : Array β} (h : Aligned R xs ys) (h' : Aligned R xs' ys') :
    Aligned R (xs ++ xs') (ys ++ ys') := by
  rw [Aligned, Array.toList_append, Array.toList_append]
  exact List.rel_append h h'

theorem replicate (hxy : R x y) (n : Nat) :
    Aligned R (Array.replicate n x) (Array.replicate n y) := by
  rw [Aligned, Array.toList_replicate, Array.toList_replicate]
  exact forall₂_replicate hxy n

theorem getD (h : Aligned R xs ys) (hxy : R x y) (n : Nat) : R (xs.getD n x) (ys.getD n y) := by
  rw [Array.getD_eq_getD_getElem?, Array.getD_eq_getD_getElem?]
  have hn := h.getElem? n
  generalize xs[n]? = a at hn ⊢
  generalize ys[n]? = b at hn ⊢
  cases hn with
  | none => exact hxy
  | some hab => exact hab

end Aligned

end

/-! ## Places that are paired -/

/-- Which places of one store stand for which of another: those of functions, tables, memories and
globals, and those of instances. -/
structure Pairing where
  places : ExternKind → Nat → Nat → Prop
  owners : Nat → Nat → Prop

namespace Pairing

/-- What the first pairs is paired by the second. -/
structure Le (P Q : Pairing) : Prop where
  places {kind : ExternKind} {a b : Nat} (h : P.places kind a b) : Q.places kind a b
  owners {a b : Nat} (h : P.owners a b) : Q.owners a b

/-- No place stands for two. -/
structure OneToOne (P : Pairing) : Prop where
  places (kind : ExternKind) : Relator.BiUnique (P.places kind)
  owners : Relator.BiUnique P.owners

end Pairing

/-- What stands at paired places is related. A place of the second array that is paired with none
holds what it holds in a third. -/
structure Paired {α : Type} (p : Nat → Nat → Prop) (R : α → α → Prop) (base xs ys : Array α) :
    Prop where
  related {a b : Nat} (h : p a b) : ∃ x y, xs[a]? = some x ∧ ys[b]? = some y ∧ R x y
  untouched {b : Nat} (h : ∀ a, ¬ p a b) : ys[b]? = base[b]?

namespace Paired

variable {α : Type} {p : Nat → Nat → Prop} {R : α → α → Prop} {base xs ys : Array α} {a b : Nat}

theorem getElem? (h : Paired p R base xs ys) (hp : p a b) : Option.Rel R xs[a]? ys[b]? := by
  obtain ⟨x, y, hx, hy, hR⟩ := h.related hp
  rw [hx, hy]
  exact .some hR

theorem bind (h : Paired p R base xs ys) {a b : Option Nat} (hab : Option.Rel p a b) :
    Option.Rel R (a.bind (xs[·]?)) (b.bind (ys[·]?)) := by
  cases hab with
  | none => exact .none
  | some hp => exact h.getElem? hp

/-- Paired places may get something new, if it is related. -/
theorem set (hone : Relator.BiUnique p) (h : Paired p R base xs ys) (hp : p a b) {x y : α}
    (hR : R x y) : Paired p R base (xs.setIfInBounds a x) (ys.setIfInBounds b y) where
  related {a' b'} hp' := by
    obtain ⟨x', y', hx, hy, hR'⟩ := h.related hp'
    by_cases ha : a = a'
    · subst ha
      cases hone.2 hp hp'
      have hxs := (Array.getElem?_eq_some_iff.1 hx).1
      have hys := (Array.getElem?_eq_some_iff.1 hy).1
      exact ⟨x, y, Array.getElem?_setIfInBounds_self_of_lt hxs,
        Array.getElem?_setIfInBounds_self_of_lt hys, hR⟩
    · have hb : b ≠ b' := by
        rintro rfl
        exact ha (hone.1 hp hp')
      refine ⟨x', y', ?_, ?_, hR'⟩
      · rw [Array.getElem?_setIfInBounds_ne ha, hx]
      · rw [Array.getElem?_setIfInBounds_ne hb, hy]
  untouched {b'} hno := by
    have hb : b ≠ b' := by
      rintro rfl
      exact hno a hp
    rw [Array.getElem?_setIfInBounds_ne hb]
    exact h.untouched hno

end Paired

/-! ## What is alike -/

section

variable (P : Pairing)

/-- The same number, or references to functions that are paired. -/
inductive Value.Alike : Value → Value → Prop
  | i32 (n : UInt32) : Alike (.i32 n) (.i32 n)
  | i64 (n : UInt64) : Alike (.i64 n) (.i64 n)
  | f32 (bits : UInt32) : Alike (.f32 bits) (.f32 bits)
  | f64 (bits : UInt64) : Alike (.f64 bits) (.f64 bits)
  | v128 (bits : Nat) : Alike (.v128 bits) (.v128 bits)
  | funcref {r r' : Option Nat} (h : Option.Rel (P.places .func) r r') :
    Alike (.funcref r) (.funcref r')

/-- The same function of the host, or the same code of paired instances. -/
inductive Function.Alike : Function → Function → Prop
  | host (type : FuncType) (f : HostFunction) : Alike (.host type f) (.host type f)
  | code {owner owner' : Nat} (type : FuncType) (code : Code) (h : P.owners owner owner') :
    Alike (.code type owner code) (.code type owner' code)

structure TableInstance.Alike (t u : TableInstance) : Prop where
  items : Aligned (Option.Rel (P.places .func)) t.items u.items
  max : u.max = t.max

structure GlobalInstance.Alike (g h : GlobalInstance) : Prop where
  type : h.type = g.type
  value : g.value.Alike P h.value

structure Extern.Alike (d e : Extern) : Prop where
  kind : e.kind = d.kind
  address : P.places d.kind d.address e.address

/-- Instances of one module with paired places for all it refers to. -/
structure Instance.Alike (i j : Instance) : Prop where
  module : j.module = i.module
  functions : Aligned (P.places .func) i.functions j.functions
  tables : Aligned (P.places .table) i.tables j.tables
  memories : Aligned (P.places .memory) i.memories j.memories
  globals : Aligned (P.places .global) i.globals j.globals
  exports : List.Forall₂ (fun d e => e.1 = d.1 ∧ d.2.Alike P e.2) i.exports j.exports
  elements : Aligned (List.Forall₂ (Option.Rel (P.places .func))) i.elements j.elements
  data : j.data = i.data

structure Label.Alike (l k : Label) : Prop where
  arity : k.arity = l.arity
  target : k.target = l.target
  after : k.after = l.after
  below : List.Forall₂ (Value.Alike P) l.below k.below

structure Frame.Alike (f g : Frame) : Prop where
  owner : P.owners f.owner g.owner
  locals : Aligned (Value.Alike P) f.locals g.locals
  arity : g.arity = f.arity
  labels : List.Forall₂ (Label.Alike P) f.labels g.labels
  code : g.code = f.code
  stack : List.Forall₂ (Value.Alike P) f.stack g.stack

inductive Transfer.Alike : Transfer → Transfer → Prop
  | advance : Alike .advance .advance
  | jump (label : Nat) : Alike (.jump label) (.jump label)
  | leave : Alike .leave .leave
  | call {a b : Nat} (h : P.places .func a b) : Alike (.call a) (.call b)

end

/-- Scripts are told the same by both hosts. -/
structure Host.Answers (h k : Host) : Prop where
  handles : k.handles = h.handles
  selection : k.selection = h.selection

/-- Hosts that answer as `base` does, and are the same if that is to be kept. -/
structure Host.Twins (same : Prop) (h k base : Host) : Prop where
  left : base.Answers h
  right : base.Answers k
  eq_of_same (hs : same) : k = h

/-- What stands at paired places of the stores is alike, and what the second holds elsewhere is what
`base` holds there. -/
structure Store.Twins (same : Prop) (P : Pairing) (s s' base : Store) : Prop where
  oneToOne : P.OneToOne
  functions : Paired (P.places .func) (Function.Alike P) base.functions s.functions s'.functions
  tables : Paired (P.places .table) (TableInstance.Alike P) base.tables s.tables s'.tables
  memories : Paired (P.places .memory) (· = ·) base.memories s.memories s'.memories
  globals : Paired (P.places .global) (GlobalInstance.Alike P) base.globals s.globals s'.globals
  instances : Paired P.owners (Instance.Alike P) base.instances s.instances s'.instances
  host : s.host.Twins same s'.host base.host

variable {same : Prop} {P Q : Pairing} {base s s' : Store}

/-! ## Values and references -/

theorem Function.Alike.type_eq {f g : Function} (h : f.Alike P g) : g.type = f.type := by
  cases h <;> rfl

namespace Value.Alike

variable {v w : Value}

theorem bits_eq (h : v.Alike P w) : w.bits = v.bits := by
  cases h <;> rfl

/-- What refers to nothing is alike in all stores. -/
theorem of_typed {t : ValType} (h : v.Typed {} t) : v.Alike P v := by
  cases h with
  | i32 n => exact .i32 n
  | i64 n => exact .i64 n
  | f32 bits => exact .f32 bits
  | f64 bits => exact .f64 bits
  | v128 bits => exact .v128 bits
  | @funcref r h =>
    cases r with
    | none => exact .funcref .none
    | some a => exact absurd (h a rfl) (Nat.not_lt_zero a)

end Value.Alike

namespace Store.Twins

theorem setHost (h : s.Twins same P s' base) {h₁ h₂ : Host} (hh : h₁.Twins same h₂ base.host) :
    Store.Twins same P { s with host := h₁ } { s' with host := h₂ } base :=
  { h with host := hh }

theorem setTable (h : s.Twins same P s' base) {a b : Nat} (hp : P.places .table a b)
    {t u : TableInstance} (ht : t.Alike P u) :
    (s.setTable a t).Twins same P (s'.setTable b u) base :=
  { h with tables := h.tables.set (h.oneToOne.places .table) hp ht }

theorem setMemory (h : s.Twins same P s' base) {a b : Nat} (hp : P.places .memory a b)
    (m : Memory) : (s.setMemory a m).Twins same P (s'.setMemory b m) base :=
  { h with memories := h.memories.set (h.oneToOne.places .memory) hp rfl }

theorem setGlobal (h : s.Twins same P s' base) {a b : Nat} (hp : P.places .global a b)
    {g k : GlobalInstance} (hg : g.Alike P k) :
    Store.Twins same P { s with globals := s.globals.setIfInBounds a g }
      { s' with globals := s'.globals.setIfInBounds b k } base :=
  { h with globals := h.globals.set (h.oneToOne.places .global) hp hg }

theorem setInstance (h : s.Twins same P s' base) {o o' : Nat} (hp : P.owners o o')
    {i j : Instance} (hi : i.Alike P j) :
    Store.Twins same P { s with instances := s.instances.setIfInBounds o i }
      { s' with instances := s'.instances.setIfInBounds o' j } base :=
  { h with instances := h.instances.set h.oneToOne.owners hp hi }

variable {i j : Instance}

theorem memory? (h : s.Twins same P s' base) (hi : i.Alike P j) (n : Nat) :
    Option.Rel (fun x y => P.places .memory x.1 y.1 ∧ x.2 = y.2) (s.memory? i n)
      (s'.memory? j n) := by
  unfold Store.memory?
  have ha := hi.memories.getElem? n
  generalize i.memories[n]? = a at ha ⊢
  generalize j.memories[n]? = b at ha ⊢
  cases ha with
  | none => exact .none
  | @some a b hp =>
    obtain ⟨m, m', hm, hm', rfl⟩ := h.memories.related hp
    simp only [bind, Option.bind_some, hm, hm']
    exact .some ⟨hp, rfl⟩

theorem table? (h : s.Twins same P s' base) (hi : i.Alike P j) (n : Nat) :
    Option.Rel (fun x y => P.places .table x.1 y.1 ∧ x.2.Alike P y.2) (s.table? i n)
      (s'.table? j n) := by
  unfold Store.table?
  have ha := hi.tables.getElem? n
  generalize i.tables[n]? = a at ha ⊢
  generalize j.tables[n]? = b at ha ⊢
  cases ha with
  | none => exact .none
  | @some a b hp =>
    obtain ⟨t, u, ht, hu, hR⟩ := h.tables.related hp
    simp only [bind, Option.bind_some, ht, hu]
    exact .some ⟨hp, hR⟩

theorem global? (h : s.Twins same P s' base) (hi : i.Alike P j) (n : Nat) :
    Option.Rel (GlobalInstance.Alike P) (i.globals[n]?.bind (s.globals[·]?))
      (j.globals[n]?.bind (s'.globals[·]?)) :=
  h.globals.bind (hi.globals.getElem? n)

end Store.Twins

/-! ## Tables -/

namespace TableInstance.Alike

variable {t u : TableInstance} {items items' : List (Option Nat)}

theorem read? (h : t.Alike P u) (start n : Nat) :
    Option.Rel (List.Forall₂ (Option.Rel (P.places .func))) (t.read? start n)
      (u.read? start n) := by
  rw [TableInstance.read?, TableInstance.read?, ← h.items.size_eq]
  split
  · exact .some (List.forall₂_take n (List.forall₂_drop start h.items))
  · exact .none

theorem write? (h : t.Alike P u) (hi : List.Forall₂ (Option.Rel (P.places .func)) items items')
    (start : Nat) :
    Option.Rel (TableInstance.Alike P) (t.write? start items) (u.write? start items') := by
  have put {xs ys : List (Option Nat)} (hxs : List.Forall₂ (Option.Rel (P.places .func)) xs ys) :
      ∀ (k : Nat) {a b : Array (Option Nat)}, Aligned (Option.Rel (P.places .func)) a b →
        Aligned (Option.Rel (P.places .func))
          ((xs.zipIdx k).foldl (fun a x => a.setIfInBounds x.2 x.1) a)
          ((ys.zipIdx k).foldl (fun a x => a.setIfInBounds x.2 x.1) b) := by
    induction hxs with
    | nil => exact fun _ _ _ hab => hab
    | cons hd _ ih => exact fun k _ _ hab => ih (k + 1) (hab.setIfInBounds hd k)
  rw [TableInstance.write?, TableInstance.write?, ← h.items.size_eq, ← hi.length_eq]
  split
  · exact .some ⟨put hi start h.items, h.max⟩
  · exact .none

theorem grow? (h : t.Alike P u) {item item' : Option Nat}
    (hi : Option.Rel (P.places .func) item item') (n : Nat) :
    Option.Rel (TableInstance.Alike P) (t.grow? n item) (u.grow? n item') := by
  have hlimit : u.limit = t.limit := by
    rw [TableInstance.limit, TableInstance.limit, h.max]
  rw [TableInstance.grow?, TableInstance.grow?, ← h.items.size_eq, hlimit]
  split
  · exact .some ⟨h.items.append (.replicate hi n), h.max⟩
  · exact .none

end TableInstance.Alike

/-! ## Single instructions -/

/-- Both go on with what is alike, or stop for the same reason. -/
inductive Effect.Twins (same : Prop) (P : Pairing) (base : Store) : Effect → Effect → Prop
  | ok {s s' : Store} {f g : Frame} {x y : Transfer} (hs : s.Twins same P s' base)
    (hf : f.Alike P g) (hx : x.Alike P y) : Twins same P base (.ok (s, f, x)) (.ok (s', g, y))
  | error (e : Stop) : Twins same P base (.error e) (.error e)

namespace Effect.Twins

variable {α β : Type} {R : α → β → Prop} {f g : Frame} {a : Option α} {b : Option β}
  {k : α → Effect} {k' : β → Effect}

theorem next (hs : s.Twins same P s' base) (hf : f.Alike P g) :
    Effect.Twins same P base (Effect.next s f) (Effect.next s' g) :=
  ok hs hf .advance

theorem trap (t : Trap) : Effect.Twins same P base (Effect.trap t) (Effect.trap t) := error _

theorem stuck : Effect.Twins same P base Effect.stuck Effect.stuck := error _

theorem having (h : Option.Rel R a b)
    (hk : ∀ x y, R x y → Effect.Twins same P base (k x) (k' y)) :
    Effect.Twins same P base (Effect.having a k) (Effect.having b k') := by
  cases h with
  | none => exact stuck
  | some hR => exact hk _ _ hR

theorem orTrap {t : Trap} (h : Option.Rel R a b)
    (hk : ∀ x y, R x y → Effect.Twins same P base (k x) (k' y)) :
    Effect.Twins same P base (Effect.orTrap t a k) (Effect.orTrap t b k') := by
  cases h with
  | none => exact trap t
  | some hR => exact hk _ _ hR

/-- Goes on with what is the same on both sides. -/
theorem orTrap_same {t : Trap} {k k' : α → Effect}
    (hk : ∀ x, Effect.Twins same P base (k x) (k' x)) :
    Effect.Twins same P base (Effect.orTrap t a k) (Effect.orTrap t a k') := by
  cases a with
  | none => exact trap t
  | some x => exact hk x

end Effect.Twins

theorem Frame.Alike.withStack {f g : Frame} (h : f.Alike P g) {vs ws : List Value}
    (hs : List.Forall₂ (Value.Alike P) vs ws) :
    Frame.Alike P { f with stack := vs } { g with stack := ws } :=
  { h with stack := hs }

theorem Frame.Alike.push {f g : Frame} (h : f.Alike P g) {v w : Value} (hv : v.Alike P w) :
    (f.push v).Alike P (g.push w) :=
  h.withStack (.cons hv h.stack)

/-- Stacks that are alike are both empty, or have values of one type on top. -/
@[elab_as_elim]
theorem stack_cases {motive : ∀ vs ws, List.Forall₂ (Value.Alike P) vs ws → Prop}
    {vs ws : List Value} (h : List.Forall₂ (Value.Alike P) vs ws) (nil : motive [] [] .nil)
    (i32 : ∀ n {vs ws} (hrest : List.Forall₂ _ vs ws), motive _ _ (.cons (.i32 n) hrest))
    (i64 : ∀ n {vs ws} (hrest : List.Forall₂ _ vs ws), motive _ _ (.cons (.i64 n) hrest))
    (f32 : ∀ n {vs ws} (hrest : List.Forall₂ _ vs ws), motive _ _ (.cons (.f32 n) hrest))
    (f64 : ∀ n {vs ws} (hrest : List.Forall₂ _ vs ws), motive _ _ (.cons (.f64 n) hrest))
    (v128 : ∀ n {vs ws} (hrest : List.Forall₂ _ vs ws), motive _ _ (.cons (.v128 n) hrest))
    (funcref : ∀ {r r' vs ws} (hr : Option.Rel (P.places .func) r r')
      (hrest : List.Forall₂ _ vs ws), motive _ _ (.cons (.funcref hr) hrest)) :
    motive vs ws h := by
  cases h with
  | nil => exact nil
  | cons hv hrest =>
    cases hv with
    | i32 n => exact i32 n hrest
    | i64 n => exact i64 n hrest
    | f32 n => exact f32 n hrest
    | f64 n => exact f64 n hrest
    | v128 n => exact v128 n hrest
    | funcref hr => exact funcref hr hrest

section

variable {f g : Frame} {i j : Instance}

open Effect.Twins

/-- An instruction on a memory. Memories that are paired are the same, so all that has to be seen is
that the same is asked of them. -/
theorem memoryEffect_twins (hs : s.Twins same P s' base) (hi : i.Alike P j) (hf : f.Alike P g)
    (op : Basic) :
    Effect.Twins same P base (memoryEffect s i f op) (memoryEffect s' j g op) := by
  have hframe {vs ws : List Value} (h : List.Forall₂ (Value.Alike P) vs ws) := hf.withStack h
  have howner := hf.owner
  have hstack := hf.stack
  obtain ⟨owner, locals, arity, labels, code, vs⟩ := f
  obtain ⟨owner', locals', arity', labels', code', ws⟩ := g
  clear hf
  dsimp only at hframe howner hstack
  cases op with
  | load access arg =>
    induction hstack using stack_cases with
    | i32 _ hrest =>
      refine having (hs.memory? hi arg.memory) ?_
      rintro ⟨a, m⟩ ⟨b, _⟩ ⟨-, rfl⟩
      dsimp only
      split
      · exact next hs (hframe (.cons (.of_typed (access.decode_typed {} _)) hrest))
      · rw [hi.module]
        exact trap _
    | _ => exact stuck
  | store access arg =>
    cases hstack with
    | nil => exact stuck
    | cons hv hstack =>
      induction hstack using stack_cases with
      | i32 _ hrest =>
        refine having (hs.memory? hi arg.memory) ?_
        rintro ⟨a, m⟩ ⟨b, _⟩ ⟨hp, rfl⟩
        have hbytes := congrArg (fun n => (List.range access.bytes).map fun i =>
          (n / Nat.pow 256 i).toUInt8) hv.bits_eq
        dsimp only
        rw [Access.encode, Access.encode, hbytes]
        split
        · exact next (hs.setMemory hp _) (hframe hrest)
        · rw [hi.module]
          exact trap _
      | _ => exact stuck
  | memorySize n =>
    refine having (hs.memory? hi n) ?_
    rintro ⟨a, m⟩ ⟨b, _⟩ ⟨-, rfl⟩
    exact next hs (hframe (.cons (.i32 _) hstack))
  | memoryGrow n =>
    induction hstack using stack_cases with
    | i32 _ hrest =>
      refine having (hs.memory? hi n) ?_
      rintro ⟨a, m⟩ ⟨b, _⟩ ⟨hp, rfl⟩
      dsimp only
      split
      · exact next (hs.setMemory hp _) (hframe (.cons (.i32 _) hrest))
      · exact next hs (hframe (.cons (.i32 _) hrest))
    | _ => exact stuck
  | memoryInit data n =>
    induction hstack using stack_cases with
    | i32 _ hstack =>
      induction hstack using stack_cases with
      | i32 _ hstack =>
        induction hstack using stack_cases with
        | i32 _ hrest =>
          refine having (hs.memory? hi n) ?_
          rintro ⟨a, m⟩ ⟨b, _⟩ ⟨hp, rfl⟩
          dsimp only
          rw [hi.data]
          split
          · exact orTrap_same fun _ => next (hs.setMemory hp _) (hframe hrest)
          · exact trap _
        | _ => exact stuck
      | _ => exact stuck
    | _ => exact stuck
  | memoryCopy n k =>
    induction hstack using stack_cases with
    | i32 _ hstack =>
      induction hstack using stack_cases with
      | i32 _ hstack =>
        induction hstack using stack_cases with
        | i32 _ hrest =>
          refine having (hs.memory? hi n) ?_
          rintro ⟨a, m⟩ ⟨b, _⟩ ⟨hp, rfl⟩
          refine having (hs.memory? hi k) ?_
          rintro ⟨c, source⟩ ⟨d, _⟩ ⟨-, rfl⟩
          exact orTrap_same fun _ => orTrap_same fun _ => next (hs.setMemory hp _) (hframe hrest)
        | _ => exact stuck
      | _ => exact stuck
    | _ => exact stuck
  | memoryFill n =>
    induction hstack using stack_cases with
    | i32 _ hstack =>
      induction hstack using stack_cases with
      | i32 _ hstack =>
        induction hstack using stack_cases with
        | i32 _ hrest =>
          refine having (hs.memory? hi n) ?_
          rintro ⟨a, m⟩ ⟨b, _⟩ ⟨hp, rfl⟩
          dsimp only
          split
          · exact next (hs.setMemory hp _) (hframe hrest)
          · exact trap _
        | _ => exact stuck
      | _ => exact stuck
    | _ => exact stuck
  | dataDrop n =>
    have hdata : j.data.setIfInBounds n [] = i.data.setIfInBounds n [] := by rw [hi.data]
    exact next (hs.setInstance howner { hi with data := hdata }) (hframe hstack)
  | _ => exact stuck

theorem tableEffect_twins (hs : s.Twins same P s' base) (hi : i.Alike P j) (hf : f.Alike P g)
    (op : Basic) :
    Effect.Twins same P base (tableEffect s i f op) (tableEffect s' j g op) := by
  have hframe {vs ws : List Value} (h : List.Forall₂ (Value.Alike P) vs ws) := hf.withStack h
  have howner := hf.owner
  have hstack := hf.stack
  obtain ⟨owner, locals, arity, labels, code, vs⟩ := f
  obtain ⟨owner', locals', arity', labels', code', ws⟩ := g
  clear hf
  dsimp only at hframe howner hstack
  cases op with
  | tableGet n =>
    induction hstack using stack_cases with
    | i32 _ hrest =>
      refine having (hs.table? hi n) ?_
      rintro ⟨a, t⟩ ⟨b, u⟩ ⟨-, ht⟩
      exact orTrap (ht.items.getElem? _) fun _ _ hr => next hs (hframe (.cons (.funcref hr) hrest))
    | _ => exact stuck
  | tableSet n =>
    induction hstack using stack_cases with
    | funcref hr hstack =>
      induction hstack using stack_cases with
      | i32 _ hrest =>
        refine having (hs.table? hi n) ?_
        rintro ⟨a, t⟩ ⟨b, u⟩ ⟨hp, ht⟩
        exact orTrap (ht.write? (.cons hr .nil) _) fun _ _ ht => next (hs.setTable hp ht)
          (hframe hrest)
      | _ => exact stuck
    | _ => exact stuck
  | tableSize n =>
    refine having (hs.table? hi n) ?_
    rintro ⟨a, t⟩ ⟨b, u⟩ ⟨-, ht⟩
    dsimp only
    rw [← ht.items.size_eq]
    exact next hs (hframe (.cons (.i32 _) hstack))
  | tableGrow n =>
    induction hstack using stack_cases with
    | i32 count hstack =>
      induction hstack using stack_cases with
      | funcref hr hrest =>
        refine having (hs.table? hi n) ?_
        rintro ⟨a, t⟩ ⟨b, u⟩ ⟨hp, ht⟩
        dsimp only
        rw [← ht.items.size_eq]
        have hgrow : Option.Rel (TableInstance.Alike P) (t.grow? count.toNat _)
          (u.grow? count.toNat _) := ht.grow? hr count.toNat
        generalize t.grow? _ _ = grown at hgrow ⊢
        generalize u.grow? _ _ = grown' at hgrow ⊢
        cases hgrow with
        | none => exact next hs (hframe (.cons (.i32 _) hrest))
        | some ht => exact next (hs.setTable hp ht) (hframe (.cons (.i32 _) hrest))
      | _ => exact stuck
    | _ => exact stuck
  | tableFill n =>
    induction hstack using stack_cases with
    | i32 _ hstack =>
      induction hstack using stack_cases with
      | funcref hr hstack =>
        induction hstack using stack_cases with
        | i32 _ hrest =>
          refine having (hs.table? hi n) ?_
          rintro ⟨a, t⟩ ⟨b, u⟩ ⟨hp, ht⟩
          dsimp only
          rw [← ht.items.size_eq]
          split
          · exact orTrap (ht.write? (forall₂_replicate hr _) _) fun _ _ ht =>
              next (hs.setTable hp ht) (hframe hrest)
          · exact trap _
        | _ => exact stuck
      | _ => exact stuck
    | _ => exact stuck
  | tableInit elements n =>
    induction hstack using stack_cases with
    | i32 _ hstack =>
      induction hstack using stack_cases with
      | i32 _ hstack =>
        induction hstack using stack_cases with
        | i32 _ hrest =>
          refine having (hs.table? hi n) ?_
          rintro ⟨a, t⟩ ⟨b, u⟩ ⟨hp, ht⟩
          have hitems := hi.elements.getD .nil elements
          dsimp only
          rw [← hitems.length_eq]
          split
          · exact orTrap (ht.write? (List.forall₂_take _ (List.forall₂_drop _ hitems)) _)
              fun _ _ ht => next (hs.setTable hp ht) (hframe hrest)
          · exact trap _
        | _ => exact stuck
      | _ => exact stuck
    | _ => exact stuck
  | tableCopy n k =>
    induction hstack using stack_cases with
    | i32 _ hstack =>
      induction hstack using stack_cases with
      | i32 _ hstack =>
        induction hstack using stack_cases with
        | i32 _ hrest =>
          refine having (hs.table? hi n) ?_
          rintro ⟨a, t⟩ ⟨b, u⟩ ⟨hp, ht⟩
          refine having (hs.table? hi k) ?_
          rintro ⟨c, source⟩ ⟨d, source'⟩ ⟨-, hsource⟩
          exact orTrap (hsource.read? _ _) fun _ _ hitems => orTrap (ht.write? hitems _)
            fun _ _ ht => next (hs.setTable hp ht) (hframe hrest)
        | _ => exact stuck
      | _ => exact stuck
    | _ => exact stuck
  | elementsDrop n =>
    exact next (hs.setInstance howner
      { hi with elements := hi.elements.setIfInBounds .nil n }) (hframe hstack)
  | _ => exact stuck

/-- An operator takes one or two numbers off the stack. -/
theorem numericEffect_twins (hs : s.Twins same P s' base) (hf : f.Alike P g) (op : Numeric) :
    Effect.Twins same P base (effect s i f (.numeric op)) (effect s' j g (.numeric op)) := by
  have evaluated {a b : Nat} {v : Value} (he : op.eval a b = .ok v) {vs ws : List Value}
      (h : List.Forall₂ (Value.Alike P) vs ws) :
      Effect.Twins same P base (.next s { f with stack := v :: vs })
        (.next s' { g with stack := v :: ws }) :=
    next hs (hf.withStack (.cons (.of_typed (op.eval_typed {} he)) h))
  have hstack := hf.stack
  unfold effect
  generalize f.stack = vs at hstack ⊢
  generalize g.stack = ws at hstack ⊢
  dsimp only
  obtain ⟨t, ht⟩ | ⟨t, u, ht⟩ := op.type_cases
  · have hlength : op.type.1.length = 1 := congrArg List.length ht
    cases hstack with
    | nil =>
      rw [hlength]
      exact stuck
    | @cons x y _ _ hx hrest =>
      simp only [hlength, hx.bits_eq]
      cases he : op.eval x.bits 0 with
      | ok v => exact evaluated he hrest
      | error t => exact trap t
  · have hlength : op.type.1.length = 2 := congrArg List.length ht
    obtain _ | @⟨b, _, _, _, hb, _ | @⟨a, _, _, _, ha, hrest⟩⟩ := hstack
    · rw [hlength]
      exact stuck
    · rw [hlength]
      exact stuck
    · simp only [hlength, ha.bits_eq, hb.bits_eq]
      cases he : op.eval a.bits b.bits with
      | ok v => exact evaluated he hrest
      | error t => exact trap t

/-- Indirect calls find functions that are paired. -/
theorem indirect_twins (hs : s.Twins same P s' base) (hi : i.Alike P j) (type table n : Nat) :
    (∃ a b, s.indirect i type table n = .ok a ∧ s'.indirect j type table n = .ok b ∧
        P.places .func a b) ∨
      ∃ e, s.indirect i type table n = .error e ∧ s'.indirect j type table n = .error e := by
  unfold Store.indirect
  rw [hi.module]
  have htable := hs.table? hi table
  generalize s.table? i table = x at htable ⊢
  generalize s'.table? j table = y at htable ⊢
  cases htable with
  | none => exact .inr ⟨.stuck, rfl, rfl⟩
  | @some x y htable =>
    obtain ⟨a, t⟩ := x
    obtain ⟨b, u⟩ := y
    cases i.module.types[type]? with
    | none => exact .inr ⟨.stuck, rfl, rfl⟩
    | some expected =>
      have hitem := htable.2.items.getElem? n
      dsimp only at hitem ⊢
      generalize t.items[n]? = item at hitem ⊢
      generalize u.items[n]? = item' at hitem ⊢
      obtain ⟨hp | _⟩ | _ := hitem
      · rename_i a b
        obtain ⟨_, _, hx, hy, hfun⟩ := hs.functions.related hp
        have htype := hfun.type_eq
        simp only [hx, hy, htype]
        split
        · exact .inl ⟨a, b, rfl, rfl, hp⟩
        · exact .inr ⟨_, rfl, rfl⟩
      · exact .inr ⟨_, rfl, rfl⟩
      · exact .inr ⟨_, rfl, rfl⟩

/-- **One instruction keeps twins twins.** It stops in both stores for the same reason, or goes on
in both. -/
theorem effect_twins (hs : s.Twins same P s' base) (hi : i.Alike P j) (hf : f.Alike P g)
    (op : Basic) : Effect.Twins same P base (effect s i f op) (effect s' j g op) := by
  have hframe {vs ws : List Value} (h : List.Forall₂ (Value.Alike P) vs ws) := hf.withStack h
  have hlocals {v w : Value} (hv : v.Alike P w) (n : Nat) : Frame.Alike P
      { f with locals := f.locals.setIfInBounds n v }
      { g with locals := g.locals.setIfInBounds n w } :=
    { hf with locals := hf.locals.setIfInBounds hv n }
  have hstack := hf.stack
  obtain ⟨owner, locals, arity, labels, code, vs⟩ := f
  obtain ⟨owner', locals', arity', labels', code', ws⟩ := g
  dsimp only at hframe hlocals hstack
  cases op with
  | numeric op => exact numericEffect_twins hs hf op
  | tableGet _ | tableSet _ | tableInit _ _ | elementsDrop _ | tableCopy _ _ | tableGrow _
  | tableSize _ | tableFill _ =>
    unfold effect
    exact tableEffect_twins hs hi hf _
  | load _ _ | store _ _ | memorySize _ | memoryGrow _ | memoryInit _ _ | dataDrop _
  | memoryCopy _ _ | memoryFill _ =>
    unfold effect
    exact memoryEffect_twins hs hi hf _
  | unreachable => exact trap _
  | nop => exact next hs hf
  | i32 n => exact next hs (hf.push (.i32 n))
  | i64 n => exact next hs (hf.push (.i64 n))
  | f32 bits => exact next hs (hf.push (.f32 bits))
  | f64 bits => exact next hs (hf.push (.f64 bits))
  | refNull => exact next hs (hf.push (.funcref .none))
  | br n => exact ok hs hf (.jump n)
  | leave => exact ok hs hf .leave
  | call n => exact having (hi.functions.getElem? n) fun _ _ hp => ok hs hf (.call hp)
  | refFunc n =>
    exact having (hi.functions.getElem? n) fun _ _ hp => next hs (hf.push (.funcref (.some hp)))
  | localGet n => exact having (hf.locals.getElem? n) fun _ _ hv => next hs (hf.push hv)
  | globalGet n => exact having (hs.global? hi n) fun _ _ hg => next hs (hf.push hg.value)
  | drop =>
    obtain _ | ⟨-, hrest⟩ := hstack
    · exact stuck
    · exact next hs (hframe hrest)
  | localSet n =>
    obtain _ | ⟨hv, hrest⟩ := hstack
    · exact stuck
    · exact next hs ((hlocals hv n).withStack hrest)
  | localTee n =>
    obtain _ | ⟨hv, hrest⟩ := hstack
    · exact stuck
    · exact next hs (hlocals hv n)
  | globalSet n =>
    obtain _ | ⟨hv, hrest⟩ := hstack
    · exact stuck
    · refine having (hi.globals.getElem? n) fun a b hp => ?_
      refine having (hs.globals.getElem? hp) fun g k hg => ?_
      exact next (hs.setGlobal hp ⟨hg.type, hv⟩) (hframe hrest)
  | refIsNull =>
    obtain _ | ⟨_ | _ | _ | _ | _ | hr, hrest⟩ := hstack
    case cons.funcref =>
      have hnull : ∀ {r r'}, Option.Rel (P.places .func) r r' → r.isNone = r'.isNone := by
        rintro _ _ (_ | _) <;> rfl
      unfold effect
      dsimp only
      rw [hnull hr]
      exact next hs (hframe (.cons (.i32 _) hrest))
    all_goals exact stuck
  | select types =>
    obtain _ | ⟨⟨c⟩ | _, _ | ⟨hb, _ | ⟨ha, hrest⟩⟩⟩ := hstack
    case cons.i32.cons.cons =>
      refine next hs (hframe (.cons ?_ hrest))
      split
      · exact hb
      · exact ha
    all_goals exact stuck
  | brIf n =>
    obtain _ | ⟨⟨c⟩ | _, hrest⟩ := hstack
    case cons.i32 =>
      refine ok hs (hframe hrest) ?_
      split
      · exact .advance
      · exact .jump n
    all_goals exact stuck
  | brTable ns last =>
    obtain _ | ⟨_ | _, hrest⟩ := hstack
    case cons.i32 => exact ok hs (hframe hrest) (.jump _)
    all_goals exact stuck
  | callIndirect type table =>
    obtain _ | ⟨⟨k⟩ | _, hrest⟩ := hstack
    case cons.i32 =>
      unfold effect
      dsimp only
      obtain ⟨a, b, ha, hb, hp⟩ | ⟨e, ha, hb⟩ := indirect_twins hs hi type table k.toNat
      · rw [ha, hb]
        exact ok hs (hframe hrest) (.call hp)
      · rw [ha, hb]
        exact error e
    all_goals exact stuck

end

end ScriptHost.Wasm

import ScriptHost.Proofs.Wasm.Instantiation
import ScriptHost.Proofs.Wasm.Lockstep

/-!
# Instances in stores that are alike

Instances of one valid module whose imports are paired can be made in twin stores alike
(`Store.instantiate_twins`). The stores are twins then under the pairing that holds the new places
as well (`Pairing.extend`), so either module has stopped in both or in none.
-/

namespace ScriptHost.Wasm

/-! ## Pairings that are extended -/

/-- The number of places of a kind. -/
def Store.count (s : Store) : ExternKind → Nat
  | .func => s.functions.size
  | .table => s.tables.size
  | .memory => s.memories.size
  | .global => s.globals.size

/-- The number of things of a kind that a module defines. -/
def Module.count (m : Module) : ExternKind → Nat
  | .func => m.functions.length
  | .table => m.tables.length
  | .memory => m.memories.length
  | .global => m.globals.length

/-- What was paired, and `n` places behind all others. -/
def Behind (p : Nat → Nat → Prop) (size size' n a b : Nat) : Prop :=
  p a b ∨ ∃ k < n, a = size + k ∧ b = size' + k

/-- The pairing where what a module defines is paired as well, once its places are made in both
stores. -/
def Pairing.extend (P : Pairing) (s s' : Store) (m : Module) : Pairing where
  places kind := Behind (P.places kind) (s.count kind) (s'.count kind) (m.count kind)
  owners := Behind P.owners s.instances.size s'.instances.size 1

/-- The second pairing holds what the first does, and else nothing but places that are new in both
stores. -/
structure Pairing.Extends (P Q : Pairing) (s s' : Store) : Prop extends P.Le Q where
  new_places {kind : ExternKind} {a b : Nat} (h : Q.places kind a b) :
    P.places kind a b ∨ ∃ k, a = s.count kind + k ∧ b = s'.count kind + k
  new_owners {a b : Nat} (h : Q.owners a b) :
    P.owners a b ∨ ∃ k, a = s.instances.size + k ∧ b = s'.instances.size + k

theorem Pairing.Extends.refl (P : Pairing) (s s' : Store) : P.Extends P s s' where
  places h := h
  owners h := h
  new_places h := .inl h
  new_owners h := .inl h

theorem Pairing.extends_extend (P : Pairing) (s s' : Store) (m : Module) :
    P.Extends (P.extend s s' m) s s' where
  places h := .inl h
  owners h := .inl h
  new_places h := h.imp id fun ⟨k, _, ha, hb⟩ => ⟨k, ha, hb⟩
  new_owners h := h.imp id fun ⟨k, _, ha, hb⟩ => ⟨k, ha, hb⟩

namespace Paired

variable {α : Type} {p : Nat → Nat → Prop} {R R' : α → α → Prop} {base xs ys : Array α}

theorem lt (h : Paired p R base xs ys) {a b : Nat} (hp : p a b) : a < xs.size ∧ b < ys.size := by
  obtain ⟨x, y, hx, hy, -⟩ := h.related hp
  exact ⟨(Array.getElem?_eq_some_iff.1 hx).1, (Array.getElem?_eq_some_iff.1 hy).1⟩

/-- New places are behind all that are paired. -/
theorem biUnique_behind (h : Paired p R base xs ys) (hone : Relator.BiUnique p) (n : Nat) :
    Relator.BiUnique (Behind p xs.size ys.size n) := by
  constructor
  · rintro a b c (hab | ⟨k, -, rfl, rfl⟩) (hcb | ⟨l, -, rfl, hl⟩)
    · exact hone.1 hab hcb
    · have := (h.lt hab).2
      omega
    · have := (h.lt hcb).2
      omega
    · omega
  · rintro a b c (hab | ⟨k, -, rfl, rfl⟩) (hac | ⟨l, -, hl, rfl⟩)
    · exact hone.2 hab hac
    · have := (h.lt hab).1
      omega
    · have := (h.lt hac).1
      omega
    · omega

theorem append (h : Paired p R base xs ys) (hR : ∀ x y, R x y → R' x y) {new new' : Array α}
    (hnew : Aligned R' new new') {n : Nat} (hn : new.size = n) :
    Paired (Behind p xs.size ys.size n) R' base (xs ++ new) (ys ++ new') where
  related {a b} hp := by
    obtain hp | ⟨k, hk, rfl, rfl⟩ := hp
    · obtain ⟨x, y, hx, hy, hxy⟩ := h.related hp
      obtain ⟨ha, hb⟩ := h.lt hp
      exact ⟨x, y, by rw [Array.getElem?_append_left ha, hx],
        by rw [Array.getElem?_append_left hb, hy], hR x y hxy⟩
    · have hat := hnew.getElem? k
      rw [Array.getElem?_append_right (Nat.le_add_right ..),
        Array.getElem?_append_right (Nat.le_add_right ..), Nat.add_sub_cancel_left,
        Nat.add_sub_cancel_left]
      rw [Array.getElem?_eq_getElem (hn ▸ hk)] at hat ⊢
      generalize new'[k]? = y at hat ⊢
      cases hat with
      | some hxy => exact ⟨_, _, rfl, rfl, hxy⟩
  untouched {b} hno := by
    have hold : ys[b]? = base[b]? := h.untouched fun a hp => hno a (.inl hp)
    rw [← hold]
    by_cases hb : b < ys.size
    · rw [Array.getElem?_append_left hb]
    · have hbehind : ys.size + n ≤ b := by
        by_contra hlt
        exact hno (xs.size + (b - ys.size)) (.inr ⟨b - ys.size, by omega, rfl, by omega⟩)
      have hsize : (ys ++ new').size ≤ b := by
        rw [Array.size_append, ← hnew.size_eq]
        omega
      have hlt : ys.size ≤ b := Nat.le_of_not_lt hb
      rw [Array.getElem?_eq_none hsize, Array.getElem?_eq_none hlt]

theorem push (h : Paired p R base xs ys) (hR : ∀ x y, R x y → R' x y) {x y : α} (hxy : R' x y) :
    Paired (Behind p xs.size ys.size 1) R' base (xs.push x) (ys.push y) := by
  rw [Array.push_eq_append, Array.push_eq_append]
  exact h.append hR (.cons hxy .nil) rfl

end Paired

/-! ## What is alike stays alike -/

section

variable {P Q : Pairing}

theorem optionRel_mono (h : P.Le Q) {kind : ExternKind} {a b : Option Nat}
    (hr : Option.Rel (P.places kind) a b) : Option.Rel (Q.places kind) a b := by
  cases hr with
  | none => exact .none
  | some hp => exact .some (h.places hp)

theorem Aligned.imp {α β : Type} {R S : α → β → Prop} {xs : Array α} {ys : Array β}
    (h : Aligned R xs ys) (hRS : ∀ x y, R x y → S x y) : Aligned S xs ys :=
  List.Forall₂.imp hRS h

theorem Value.Alike.mono (h : P.Le Q) {v w : Value} (hv : v.Alike P w) : v.Alike Q w := by
  cases hv with
  | i32 n => exact .i32 n
  | i64 n => exact .i64 n
  | f32 bits => exact .f32 bits
  | f64 bits => exact .f64 bits
  | v128 bits => exact .v128 bits
  | funcref hr => exact .funcref (optionRel_mono h hr)

theorem Value.Alike.referred {v w : Value} (hv : v.Alike P w) :
    Option.Rel (P.places .func) (Store.referred v) (Store.referred w) := by
  cases hv with
  | funcref hr => exact hr
  | _ => exact .none

theorem Function.Alike.mono (h : P.Le Q) {f g : Function} (hf : f.Alike P g) : f.Alike Q g := by
  cases hf with
  | host type f => exact .host type f
  | code type code ho => exact .code type code (h.owners ho)

theorem TableInstance.Alike.mono (h : P.Le Q) {t u : TableInstance} (ht : t.Alike P u) :
    t.Alike Q u where
  items := ht.items.imp fun _ _ => optionRel_mono h
  max := ht.max

theorem GlobalInstance.Alike.mono (h : P.Le Q) {g k : GlobalInstance} (hg : g.Alike P k) :
    g.Alike Q k where
  type := hg.type
  value := hg.value.mono h

theorem Extern.Alike.mono (h : P.Le Q) {d e : Extern} (hd : d.Alike P e) : d.Alike Q e where
  kind := hd.kind
  address := h.places hd.address

theorem Instance.Alike.mono (h : P.Le Q) {i j : Instance} (hi : i.Alike P j) : i.Alike Q j where
  module := hi.module
  functions := hi.functions.imp fun _ _ => h.places
  tables := hi.tables.imp fun _ _ => h.places
  memories := hi.memories.imp fun _ _ => h.places
  globals := hi.globals.imp fun _ _ => h.places
  exports := hi.exports.imp fun _ _ hd => ⟨hd.1, hd.2.mono h⟩
  elements := hi.elements.imp fun _ _ hr => hr.imp fun _ _ => optionRel_mono h
  data := hi.data

end

/-! ## Initial values -/

namespace Store

variable {same : Prop} {P : Pairing} {base s s' : Store} {m : Module}
  {imports imports' : List Extern}

/-- Values that code stands for are alike, if the functions and globals are that it refers to. -/
theorem initial_alike {functions functions' globals globals' : Array Nat}
    (hf : Aligned (P.places .func) functions functions')
    (hg : ∀ n : Nat, Option.Rel (GlobalInstance.Alike P) (globals[n]?.bind (s.globals[·]?))
      (globals'[n]?.bind (s'.globals[·]?))) (code : List Instr) :
    (s.initial functions globals code).Alike P (s'.initial functions' globals' code) := by
  have head {vs ws : List Value} (h : List.Forall₂ (Value.Alike P) vs ws) :
      (vs.headD default).Alike P (ws.headD default) := by
    cases h with
    | nil => exact .i32 0
    | cons hv _ => exact hv
  unfold initial
  refine head (List.rel_foldl (P := List.Forall₂ (Value.Alike P)) (R := (· = ·)) ?_ .nil
    (List.forall₂_same.2 fun _ _ => rfl))
  rintro vs ws h instr _ rfl
  cases instr with
  | basic op =>
    cases op with
    | i32 n => exact .cons (.i32 n) h
    | i64 n => exact .cons (.i64 n) h
    | f32 bits => exact .cons (.f32 bits) h
    | f64 bits => exact .cons (.f64 bits) h
    | refNull => exact .cons (.funcref .none) h
    | refFunc f => exact .cons (.funcref (hf.getElem? f)) h
    | globalGet n =>
      refine .cons ?_ h
      have hglobal := hg n
      generalize globals[n]?.bind (s.globals[·]?) = g at hglobal ⊢
      generalize globals'[n]?.bind (s'.globals[·]?) = k at hglobal ⊢
      cases hglobal with
      | none => exact .i32 0
      | some hg => exact hg.value
    | numeric op =>
      obtain _ | ⟨hb, _ | ⟨ha, hrest⟩⟩ := h
      · exact .nil
      · exact .cons hb .nil
      · dsimp only
        rw [ha.bits_eq, hb.bits_eq]
        cases he : op.eval _ _ with
        | ok v => exact .cons (.of_typed (op.eval_typed {} he)) hrest
        | error t => exact .cons hb (.cons ha hrest)
    | _ => exact h
  | _ => exact h

/-! ## Places -/

theorem placesOf_eq (s : Store) (m : Module) (imports : List Extern) (kind : ExternKind) :
    s.placesOf m imports kind =
      places ((imports.filter fun e => e.kind = kind).map Extern.address) (s.count kind)
        (m.count kind) := by
  cases kind <;> rfl

theorem imported_alike (hi : List.Forall₂ (Extern.Alike P) imports imports') (kind : ExternKind) :
    List.Forall₂ (P.places kind) ((imports.filter fun e => e.kind = kind).map Extern.address)
      ((imports'.filter fun e => e.kind = kind).map Extern.address) := by
  induction hi with
  | nil => exact .nil
  | @cons d e _ _ hd _ ih =>
    by_cases hk : d.kind = kind
    · have hk' : e.kind = kind := hd.kind.trans hk
      rw [List.filter_cons_of_pos (by simpa using hk), List.filter_cons_of_pos (by simpa using hk'),
        List.map_cons, List.map_cons]
      exact .cons (hk ▸ hd.address) ih
    · have hk' : ¬ e.kind = kind := fun h => hk (hd.kind.symm.trans h)
      rwa [List.filter_cons_of_neg (by simpa using hk),
        List.filter_cons_of_neg (by simpa using hk')]

/-- The places of an instance are paired, those that are imported as those that are new. -/
theorem placesOf_alike (s s' : Store) (m : Module)
    (hi : List.Forall₂ (Extern.Alike P) imports imports') (kind : ExternKind) :
    Aligned ((P.extend s s' m).places kind) (s.placesOf m imports kind)
      (s'.placesOf m imports' kind) := by
  rw [placesOf_eq, placesOf_eq]
  refine List.rel_append ((imported_alike hi kind).imp fun _ _ => .inl) ?_
  rw [List.forall₂_map_left_iff, List.forall₂_map_right_iff, List.forall₂_same]
  exact fun k hk => .inr ⟨k, List.mem_range.1 hk, rfl, rfl⟩

/-- Globals that were there before are alike, and the new ones are not there yet. -/
theorem globals_placesOf (hs : s.Twins same P s' base)
    (hi : List.Forall₂ (Extern.Alike P) imports imports') (n : Nat) :
    Option.Rel (GlobalInstance.Alike (P.extend s s' m))
      ((s.placesOf m imports .global)[n]?.bind (s.globals[·]?))
      ((s'.placesOf m imports' .global)[n]?.bind (s'.globals[·]?)) := by
  have hplace := (placesOf_alike s s' m hi .global).getElem? n
  generalize (s.placesOf m imports .global)[n]? = a at hplace ⊢
  generalize (s'.placesOf m imports' .global)[n]? = b at hplace ⊢
  cases hplace with
  | none => exact .none
  | @some a b hp =>
    rw [Option.bind_some, Option.bind_some]
    obtain hp | ⟨k, -, rfl, rfl⟩ := hp
    · obtain ⟨g, h, hg, hh, hgh⟩ := hs.globals.related hp
      rw [hg, hh]
      exact .some (hgh.mono (P.extends_extend s s' m).toLe)
    · have hnew : s.globals[s.count .global + k]? = none :=
        Array.getElem?_eq_none (Nat.le_add_right ..)
      have hnew' : s'.globals[s'.count .global + k]? = none :=
        Array.getElem?_eq_none (Nat.le_add_right ..)
      rw [hnew, hnew']
      exact .none

/-- Places are made in both stores alike. -/
theorem allocate_twins (hs : s.Twins same P s' base)
    (hi : List.Forall₂ (Extern.Alike P) imports imports')
    (hl : m.functions.length = m.codes.length)
    (he : ∀ e ∈ m.exports, e.index < (s.placesOf m imports e.kind).size) :
    (s.allocate m imports).1.Twins same (P.extend s s' m) (s'.allocate m imports').1 base := by
  have hle := (P.extends_extend s s' m).toLe
  have hplaces := placesOf_alike s s' m hi
  have howner : (P.extend s s' m).owners s.instances.size s'.instances.size :=
    .inr ⟨0, Nat.one_pos, rfl, rfl⟩
  have hinitial := initial_alike (hplaces .func) (globals_placesOf hs hi)
  have same_map {α β : Type} {R : β → β → Prop} {f g : α → β} {xs : List α}
      (h : ∀ x ∈ xs, R (f x) (g x)) : Aligned R (xs.map f).toArray (xs.map g).toArray := by
    rw [Aligned, List.forall₂_map_left_iff, List.forall₂_map_right_iff, List.forall₂_same]
    exact h
  have hexport {e : Export} (hm : e ∈ m.exports) : (P.extend s s' m).places e.kind
      ((s.placesOf m imports e.kind).getD e.index 0)
      ((s'.placesOf m imports' e.kind).getD e.index 0) := by
    have hat := (hplaces e.kind).getElem? e.index
    rw [Array.getD_eq_getD_getElem?, Array.getD_eq_getD_getElem?]
    rw [Array.getElem?_eq_getElem (he e hm)] at hat ⊢
    generalize (s'.placesOf m imports' e.kind)[e.index]? = b at hat ⊢
    cases hat with
    | some hp => exact hp
  have hnew : Aligned (GlobalInstance.Alike (P.extend s s' m))
      (m.globals.map fun g => GlobalInstance.mk g.type
        (s.initial (s.placesOf m imports .func) (s.placesOf m imports .global) g.init)).toArray
      (m.globals.map fun g => GlobalInstance.mk g.type
        (s'.initial (s'.placesOf m imports' .func) (s'.placesOf m imports' .global)
          g.init)).toArray :=
    same_map fun g _ => ⟨rfl, hinitial g.init⟩
  have hglobals := hs.globals.append (fun _ _ => GlobalInstance.Alike.mono hle) hnew
    (n := m.count .global) (by simp [Module.count])
  refine ⟨⟨fun kind => ?_, hs.instances.biUnique_behind hs.oneToOne.owners 1⟩,
    hs.functions.append (fun _ _ => .mono hle) (same_map fun f _ => ?_) ?_,
    hs.tables.append (fun _ _ => .mono hle) (same_map fun t _ => ?_) ?_,
    hs.memories.append (fun _ _ => id) (same_map fun _ _ => rfl) ?_, hglobals,
    hs.instances.push (fun _ _ => .mono hle) ?_, hs.host⟩
  · cases kind with
    | func => exact hs.functions.biUnique_behind (hs.oneToOne.places .func) _
    | table => exact hs.tables.biUnique_behind (hs.oneToOne.places .table) _
    | memory => exact hs.memories.biUnique_behind (hs.oneToOne.places .memory) _
    | global => exact hs.globals.biUnique_behind (hs.oneToOne.places .global) _
  · exact .code _ _ howner
  · simp [Module.count, hl]
  · exact ⟨.replicate .none _, rfl⟩
  · simp [Module.count]
  · simp [Module.count]
  · refine ⟨rfl, hplaces .func, hplaces .table, hplaces .memory, hplaces .global, ?_,
      same_map fun e _ => ?_, rfl⟩
    · rw [List.forall₂_map_left_iff, List.forall₂_map_right_iff, List.forall₂_same]
      intro e hm
      have hp := hexport hm
      obtain ⟨name, kind, index⟩ := e
      refine ⟨rfl, rfl, ?_⟩
      cases kind <;> exact hp
    · cases e.items with
      | functions indices =>
        dsimp only
        rw [List.forall₂_map_left_iff, List.forall₂_map_right_iff, List.forall₂_same]
        exact fun f _ => (hplaces .func).getElem? f
      | expressions items =>
        dsimp only
        rw [List.forall₂_map_left_iff, List.forall₂_map_right_iff, List.forall₂_same]
        exact fun code _ => (initial_alike (hplaces .func)
          (fun n => hglobals.bind ((hplaces .global).getElem? n)) code).referred

/-! ## Segments -/

theorem offset_twins (hs : s.Twins same P s' base) {i j : Instance} (hi : i.Alike P j)
    (code : List Instr) : s'.offset j code = s.offset i code :=
  (initial_alike hi.functions (hs.global? hi) code).bits_eq

theorem copyElements_twins (hs : s.Twins same P s' base) {o o' : Nat} (ho : P.owners o o')
    (segments : List (ElementSegment × Nat)) :
    (∃ t t', s.copyElements o segments = .ok t ∧ s'.copyElements o' segments = .ok t' ∧
        t.Twins same P t' base) ∨
      ∃ t t' trap, s.copyElements o segments = .error (t, trap) ∧
        s'.copyElements o' segments = .error (t', trap) ∧ t.Twins same P t' base := by
  induction segments generalizing s s' with
  | nil => exact .inl ⟨s, s', rfl, rfl, hs⟩
  | cons segment rest ih =>
    obtain ⟨e, n⟩ := segment
    obtain ⟨i, j, hi, hj, hij⟩ := hs.instances.related ho
    have hdropped : Instance.Alike P { i with elements := i.elements.setIfInBounds n [] }
        { j with elements := j.elements.setIfInBounds n [] } :=
      { hij with elements := hij.elements.setIfInBounds .nil n }
    replace hdropped := hs.setInstance ho hdropped
    simp only [copyElements, hi, hj]
    cases e.mode with
    | passive => exact ih hs
    | declared => exact ih hdropped
    | active target code =>
      have htable := hs.table? hij target
      dsimp only
      rw [offset_twins hs hij code]
      generalize s.table? i target = x at htable ⊢
      generalize s'.table? j target = y at htable ⊢
      cases htable with
      | none => exact .inr ⟨s, s', _, rfl, rfl, hs⟩
      | @some x y h =>
        obtain ⟨a, t⟩ := x
        obtain ⟨b, u⟩ := y
        obtain ⟨hp, htu⟩ := h
        have hwrite := htu.write? (hij.elements.getD .nil n) (s.offset i code)
        dsimp only at hwrite ⊢
        generalize t.write? _ _ = x at hwrite ⊢
        generalize u.write? _ _ = y at hwrite ⊢
        cases hwrite with
        | none => exact .inr ⟨s, s', _, rfl, rfl, hs⟩
        | some htu => exact ih (hdropped.setTable hp htu)

theorem copyData_twins (hs : s.Twins same P s' base) {o o' : Nat} (ho : P.owners o o')
    (segments : List (DataSegment × Nat)) :
    (∃ t t', s.copyData o segments = .ok t ∧ s'.copyData o' segments = .ok t' ∧
        t.Twins same P t' base) ∨
      ∃ t t' trap, s.copyData o segments = .error (t, trap) ∧
        s'.copyData o' segments = .error (t', trap) ∧ t.Twins same P t' base := by
  induction segments generalizing s s' with
  | nil => exact .inl ⟨s, s', rfl, rfl, hs⟩
  | cons segment rest ih =>
    obtain ⟨d, n⟩ := segment
    obtain ⟨i, j, hi, hj, hij⟩ := hs.instances.related ho
    have hdropped : Instance.Alike P { i with data := i.data.setIfInBounds n [] }
        { j with data := j.data.setIfInBounds n [] } :=
      { hij with data := congrArg (·.setIfInBounds n []) hij.data }
    replace hdropped := hs.setInstance ho hdropped
    simp only [copyData, hi, hj]
    cases d.mode with
    | passive => exact ih hs
    | declared => exact ih hs
    | active target code =>
      have hmemory := hs.memory? hij target
      dsimp only
      rw [offset_twins hs hij code]
      generalize s.memory? i target = x at hmemory ⊢
      generalize s'.memory? j target = y at hmemory ⊢
      cases hmemory with
      | none => exact .inr ⟨s, s', _, rfl, rfl, hs⟩
      | @some x y h =>
        obtain ⟨a, memory⟩ := x
        obtain ⟨b, _⟩ := y
        obtain ⟨hp, rfl⟩ := h
        dsimp only
        cases memory.write? (s.offset i code) d.bytes with
        | none => exact .inr ⟨s, s', _, rfl, rfl, hs⟩
        | some written => exact ih (hdropped.setMemory hp written)

/-! ## Instances -/

/-- The start function ends alike. The first place is that of a function of the host, which stands
for functions that are not there. -/
theorem start_twins (hs : s.Twins same P s' base) (hzero : P.places .func 0 0) {o o' : Nat}
    (ho : P.owners o o') (m : Module) :
    (s.start o m).1.Twins same P (s'.start o' m).1 base ∧
      Matches P.owners (s.start o m).2 (s'.start o' m).2 := by
  obtain ⟨i, j, hi, hj, hij⟩ := hs.instances.related ho
  unfold start
  rw [hi, hj]
  cases m.start with
  | none => exact ⟨hs, .ok ho⟩
  | some f =>
    have hcall := call_twins hs (hij.functions.getD hzero f) .nil
    dsimp only
    generalize s.call _ [] = x at hcall ⊢
    generalize s'.call _ [] = y at hcall ⊢
    cases hcall with
    | values hs' _ => exact ⟨hs', .ok ho⟩
    | stopped hs' reason inCode => exact ⟨hs', .error _⟩

/-- The numbers that a valid module exports by are those of its places. -/
theorem index_lt_placesOf (hv : m.isValid) {found : List ExternType}
    (hi : List.Forall₂ (fun e t => s.externType? e = some t) imports found)
    (hf : m.SatisfiedBy found) {e : Export} (he : e ∈ m.exports) :
    e.index < (s.placesOf m imports e.kind).size := by
  have htypes := map_types_placesOf (Module.length_codes hv) hi e.kind
  rw [← Array.length_toList, ← List.length_map, htypes, List.length_map]
  exact Module.index_lt hv hf he

/-- **Instances are made alike.** -/
theorem instantiate_twins (hs : s.Twins same P s' base) (hzero : P.places .func 0 0)
    (hv : m.isValid) {found : List ExternType}
    (hfound : List.Forall₂ (fun e t => s.externType? e = some t) imports found)
    (hf : m.SatisfiedBy found) (hi : List.Forall₂ (Extern.Alike P) imports imports') :
    (s.instantiate m imports).1.Twins same (P.extend s s' m) (s'.instantiate m imports').1 base ∧
      Matches (P.extend s s' m).owners (s.instantiate m imports).2
        (s'.instantiate m imports').2 := by
  have hplaces := allocate_twins hs hi (Module.length_codes hv) fun e he =>
    index_lt_placesOf hv hfound hf he
  have howner : (P.extend s s' m).owners s.instances.size s'.instances.size :=
    .inr ⟨0, Nat.one_pos, rfl, rfl⟩
  have hzero := (P.extends_extend s s' m).places hzero
  generalize P.extend s s' m = Q at hplaces howner hzero ⊢
  unfold instantiate
  dsimp only
  have howners : (s.allocate m imports).2 = s.instances.size ∧
      (s'.allocate m imports').2 = s'.instances.size := ⟨rfl, rfl⟩
  rw [howners.1, howners.2]
  obtain ⟨t, t', ht, ht', hs⟩ | ⟨t, t', trap, ht, ht', hs⟩ :=
    copyElements_twins hplaces howner m.elements.zipIdx
  · simp only [ht, ht']
    obtain ⟨u, u', hu, hu', hs⟩ | ⟨u, u', trap, hu, hu', hs⟩ :=
      copyData_twins hs howner m.data.zipIdx
    · simp only [hu, hu']
      exact start_twins hs hzero howner m
    · simp only [hu, hu']
      exact ⟨hs, .error _⟩
  · simp only [ht, ht']
    exact ⟨hs, .error _⟩

end Store

end ScriptHost.Wasm

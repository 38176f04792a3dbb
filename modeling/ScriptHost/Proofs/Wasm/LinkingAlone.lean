import ScriptHost.Proofs.Wasm.TwinLinkers

/-!
# References that can be linked alone

A reference that can be linked as the only one can be linked behind all others, unless a name that
it exports is taken (`Linker.AtWork.addReference_cases`): it imports from the host alone, so what
others have made does not matter to it, and it does not touch that. Two of them can therefore be
linked in either order, and what is linked is alike (`Linker.AtWork.swap`).
-/

namespace ScriptHost.Wasm

/-! ## What is left untouched -/

/-- Everything stands in the second store as it does in the first. -/
structure Store.Keeps (s t : Store) : Prop where
  functions : Kept (· = ·) s.functions t.functions
  tables : Kept (· = ·) s.tables t.tables
  memories : Kept (· = ·) s.memories t.memories
  globals : Kept (· = ·) s.globals t.globals
  instances : Kept (· = ·) s.instances t.instances

theorem Kept.getElem? {α : Type} {xs ys : Array α} (h : Kept (· = ·) xs ys) {a : Nat} {x : α}
    (hx : xs[a]? = some x) : ys[a]? = some x := by
  obtain ⟨y, hy, rfl⟩ := h a x hx
  exact hy

namespace Store.Keeps

variable {s t u : Store}

theorem refl (s : Store) : s.Keeps s where
  functions := .refl (fun _ => rfl) _
  tables := .refl (fun _ => rfl) _
  memories := .refl (fun _ => rfl) _
  globals := .refl (fun _ => rfl) _
  instances := .refl (fun _ => rfl) _

theorem trans (h : s.Keeps t) (h' : t.Keeps u) : s.Keeps u where
  functions := h.functions.trans Eq.trans h'.functions
  tables := h.tables.trans Eq.trans h'.tables
  memories := h.memories.trans Eq.trans h'.memories
  globals := h.globals.trans Eq.trans h'.globals
  instances := h.instances.trans Eq.trans h'.instances

end Store.Keeps

/-! ## Stores that are their own twins -/

/-- Every place is paired with itself or with none. -/
structure Pairing.Diagonal (D : Pairing) : Prop where
  places {kind : ExternKind} {a b : Nat} (h : D.places kind a b) : a = b
  owners {a b : Nat} (h : D.owners a b) : a = b

theorem Pairing.Diagonal.extends {D Q : Pairing} {s : Store} (hD : D.Diagonal)
    (h : D.Extends Q s s) : Q.Diagonal where
  places hp := by
    obtain hp | ⟨k, rfl, rfl⟩ := h.new_places hp
    · exact hD.places hp
    · rfl
  owners ho := by
    obtain ho | ⟨k, rfl, rfl⟩ := h.new_owners ho
    · exact hD.owners ho
    · rfl

section

variable {same same' : Prop} {P D : Pairing} {base s t u : Store}

theorem Paired.between {α : Type} {p : Nat → Nat → Prop} {R : α → α → Prop}
    {base xs ys zs : Array α} (h : Paired p R base xs xs) (hp : ∀ {a b}, p a b → a = b)
    (hy : Kept (· = ·) xs ys) (hz : Kept (· = ·) xs zs) : Paired p R zs ys zs where
  related {a b} hab := by
    obtain ⟨x, x', hx, hx', hR⟩ := h.related hab
    cases hp hab
    exact ⟨x, x', hy.getElem? hx, hz.getElem? hx', hR⟩
  untouched _ := rfl

/-- What is its own twin is so in all stores that keep it. -/
theorem Store.Twins.between (h : s.Twins same D s base) (hD : D.Diagonal) (ht : s.Keeps t)
    (hu : s.Keeps u) (hh : t.host.Twins same' u.host u.host) : t.Twins same' D u u where
  oneToOne := h.oneToOne
  functions := h.functions.between hD.places ht.functions hu.functions
  tables := h.tables.between hD.places ht.tables hu.tables
  memories := h.memories.between hD.places ht.memories hu.memories
  globals := h.globals.between hD.places ht.globals hu.globals
  instances := h.instances.between hD.owners ht.instances hu.instances
  host := hh

/-- What is touched does not matter any more. -/
theorem Store.Twins.rebase (h : s.Twins same P t base) : s.Twins same P t t where
  oneToOne := h.oneToOne
  functions := ⟨h.functions.related, fun _ => rfl⟩
  tables := ⟨h.tables.related, fun _ => rfl⟩
  memories := ⟨h.memories.related, fun _ => rfl⟩
  globals := ⟨h.globals.related, fun _ => rfl⟩
  instances := ⟨h.instances.related, fun _ => rfl⟩
  host := ⟨⟨h.host.handles.symm, h.host.selection.symm⟩, ⟨rfl, rfl⟩, h.host.eq_of_same⟩

end

theorem Host.Answers.symm {h k : Host} (hk : h.Answers k) : k.Answers h :=
  ⟨hk.handles.symm, hk.selection.symm⟩

theorem Host.Answers.trans {h k j : Host} (hk : h.Answers k) (hj : k.Answers j) : h.Answers j :=
  ⟨hj.handles.trans hk.handles, hj.selection.trans hk.selection⟩

/-- What an instance exports is named as in its module. -/
theorem Store.instantiate_names {s : Store} {m : Module} {imports : List Extern} {owner : Nat}
    (h : (s.instantiate m imports).2 = .ok owner) :
    ∃ i, (s.instantiate m imports).1.instances[owner]? = some i ∧
      i.exports.map Prod.fst = m.exports.map Export.name := by
  obtain ⟨i, hi, he⟩ := s.allocate_instance m imports
  obtain ⟨j, hj, hstays⟩ := (s.allocate_grows_instantiate m imports).instances _ i hi
  rw [instantiate_eq_ok h]
  refine ⟨j, hj, ?_⟩
  rw [hstays, he, List.map_map]
  rfl

namespace Linker

/-! ## The functions of the host -/

/-- Nothing is there but functions of the host. -/
structure HostOnly (l : Linker) : Prop where
  functions : ∀ f ∈ l.store.functions, ∃ t h, f = .host t h
  tables : l.store.tables = #[]
  memories : l.store.memories = #[]
  globals : l.store.globals = #[]
  instances : l.store.instances = #[]
  definitions : ∀ d ∈ l.definitions, d.2.kind = .func ∧ d.2.address < l.store.functions.size

theorem HostOnly.addFunctions {l : Linker} (h : l.HostOnly) (module : String)
    (fs : List (String × HostFunction × FuncType)) :
    (fs.foldl (fun l (name, f, t) => l.addFunction module name f t) l).HostOnly := by
  induction fs generalizing l with
  | nil => exact h
  | cons f rest ih =>
    obtain ⟨name, f, t⟩ := f
    refine ih { h with functions := fun g hg => ?_, definitions := fun d hd => ?_ }
    · obtain hg | rfl := Array.mem_push.1 hg
      · exact h.functions g hg
      · exact ⟨t, f, rfl⟩
    · dsimp only [addFunction]
      rw [Array.size_push]
      obtain rfl | hd := List.mem_cons.1 hd
      · exact ⟨rfl, Nat.lt_succ_self _⟩
      · have := h.definitions d hd
        exact ⟨this.1, Nat.lt_succ_of_lt this.2⟩

theorem ofHost_hostOnly (host : Host) : (ofHost host).HostOnly := by
  have hempty : HostOnly { store := { host } } := by
    constructor <;> simp
  exact (hempty.addFunctions _ _).addFunctions _ _

theorem host_addFunctions (l : Linker) (module : String)
    (fs : List (String × HostFunction × FuncType)) :
    (fs.foldl (fun l (name, f, t) => l.addFunction module name f t) l).store.host =
      l.store.host := by
  induction fs generalizing l with
  | nil => rfl
  | cons f rest ih => exact ih _

theorem size_addFunctions (l : Linker) (module : String)
    (fs : List (String × HostFunction × FuncType)) :
    (fs.foldl (fun l (name, f, t) => l.addFunction module name f t) l).store.functions.size =
      l.store.functions.size + fs.length := by
  induction fs generalizing l with
  | nil => rfl
  | cons f rest ih =>
    refine (ih _).trans ?_
    dsimp only [addFunction]
    rw [Array.size_push, List.length_cons]
    omega

theorem host_ofHost (host : Host) : (ofHost host).store.host = host :=
  (host_addFunctions _ _ _).trans (host_addFunctions _ _ _)

/-- The linker has the same on offer as itself, wherever its places are paired with themselves. -/
structure Closed (l : Linker) (D : Pairing) : Prop where
  diagonal : D.Diagonal
  twins : l.Twins True D l.store l

/-- What has a name is alike to itself. -/
theorem Closed.alike {l : Linker} {D : Pairing} (h : l.Closed D) {key : String × String}
    {d : Extern} (hd : l.definitions.lookup key = some d) : d.Alike D d := by
  have hrel := h.twins.definitions key
  rw [hd] at hrel
  cases hrel with
  | some hdd => exact hdd

/-- The functions of the host, each paired with itself. -/
def hostPairing (l : Linker) : Pairing where
  places kind a b := kind = .func ∧ a = b ∧ a < l.store.functions.size
  owners _ _ := False

theorem HostOnly.closed {l : Linker} (h : l.HostOnly) (hzero : 0 < l.store.functions.size) :
    l.Closed l.hostPairing where
  diagonal := ⟨fun hp => hp.2.1, False.elim⟩
  twins := {
    store := {
      oneToOne := {
        places kind := ⟨fun _ _ _ hp hq => hp.2.1.trans hq.2.1.symm,
          fun _ _ _ hp hq => hp.2.1.symm.trans hq.2.1⟩
        owners := ⟨nofun, nofun⟩ }
      functions := {
        related := by
          rintro a _ ⟨-, rfl, ha⟩
          obtain ⟨t, f, hf⟩ := h.functions _ (Array.getElem_mem ha)
          refine ⟨_, _, Array.getElem?_eq_getElem ha, Array.getElem?_eq_getElem ha, ?_⟩
          rw [hf]
          exact .host t f
        untouched _ := rfl }
      tables := ⟨nofun, fun _ => rfl⟩
      memories := ⟨nofun, fun _ => rfl⟩
      globals := ⟨nofun, fun _ => rfl⟩
      instances := ⟨False.elim, fun _ => rfl⟩
      host := ⟨⟨rfl, rfl⟩, ⟨rfl, rfl⟩, fun _ => rfl⟩ }
    zero := ⟨rfl, rfl, hzero⟩
    definitions key := by
      cases hd : l.definitions.lookup key with
      | none => exact .none
      | some e =>
        obtain ⟨before, rest, hsplit, -⟩ := List.lookup_eq_some_iff.1 hd
        have hmem : (key, e) ∈ l.definitions := by simp [hsplit]
        obtain ⟨hk, ha⟩ := h.definitions _ hmem
        exact .some ⟨rfl, hk, rfl, ha⟩ }

/-! ## Linkers at work -/

/-- Everything stands in the second linker as it does in the first, under the names it has there. -/
structure Keeps (l k : Linker) : Prop where
  keeps : l.store.Keeps k.store
  known {key : String × String} {e : Extern} (h : l.definitions.lookup key = some e) :
    k.definitions.lookup key = some e

theorem Keeps.refl (l : Linker) : l.Keeps l where
  keeps := .refl _
  known h := h

theorem Keeps.trans {l k j : Linker} (h : l.Keeps k) (h' : k.Keeps j) : l.Keeps j where
  keeps := h.keeps.trans h'.keeps
  known he := h'.known (h.known he)

/-- A linker that began at the host: what it had then is still there, and all that has a name since
refers to what is there. -/
structure AtWork (host : Host) (l : Linker) : Prop extends (ofHost host).Keeps l where
  answers : host.Answers l.store.host
  closed : ∃ D, l.Closed D

theorem ofHost_closed (host : Host) : (ofHost host).Closed (ofHost host).hostPairing := by
  refine (ofHost_hostOnly host).closed ?_
  rw [ofHost, size_addFunctions]
  exact Nat.lt_of_lt_of_le (show 0 < HostFunction.own.length from Nat.succ_pos _)
    (Nat.le_add_left ..)

end Linker

/-! ## Adding references -/

namespace Compiled

/-- The reference can be linked as the only one. -/
def LinksAlone (r : Compiled) (host : Host) : Prop :=
  ∃ l, (Linker.ofHost host).addReference r = .ok l

/-- The reference can be linked as the only one, and has written nothing then. -/
def LinksSilently (r : Compiled) (host : Host) : Prop :=
  ∃ l, (Linker.ofHost host).addReference r = .ok l ∧ l.store.host = host

/-- The names that a reference exports something by. -/
def Names (r : Compiled) (key : String × String) : Prop :=
  key.1 = r.name ∧ ∃ e ∈ r.module.exports, e.name = key.2

end Compiled

namespace Linker

variable {l k : Linker} {m : Module} {r : Compiled} {host : Host}

theorem lookup_of_resolve {imports : List Extern} (h : l.resolve m = .ok imports) {i : Import}
    (hi : i ∈ m.imports) : ∃ e, l.definitions.lookup (i.module, i.name) = some e := by
  rw [resolve_eq] at h
  obtain ⟨found, hm, hall⟩ | ⟨fault, hm, -⟩ := mapM_cases l.find m.imports
  · obtain ⟨e, -, he⟩ := exists_mem_zip hall hi
    exact ⟨e, find_eq_ok.1 he⟩
  · simp [hm] at h

theorem instantiate_eq_ok {s : Store} {owner : Nat} (h : l.instantiate m = (s, .ok owner)) :
    ∃ imports, l.resolve m = .ok imports ∧ l.store.instantiate m imports = (s, .ok owner) := by
  unfold instantiate at h
  split at h
  · cases h
  · rename_i imports hr
    exact ⟨imports, hr, h⟩

theorem addReference_eq_ok (h : l.addReference r = .ok k) :
    ∃ s owner i, l.instantiate r.module = (s, .ok owner) ∧ s.instances[owner]? = some i ∧
      i.exports.map Prod.fst = r.module.exports.map Export.name ∧
      defineExports { l with store := s } r.name i.exports = .ok k := by
  unfold addReference at h
  split at h
  · cases h
  · rename_i s owner hmade
    obtain ⟨imports, -, hi⟩ := instantiate_eq_ok hmade
    obtain ⟨i, hi', hnames⟩ := Store.instantiate_names (congrArg Prod.snd hi)
    rw [hi] at hi'
    dsimp only at h hi'
    rw [hi', Option.map_some, Option.getD_some] at h
    refine ⟨s, owner, i, hmade, hi', hnames, ?_⟩
    split at h
    · rename_i next hd
      cases h
      exact hd
    · cases h

theorem instantiate_grows (l : Linker) (m : Module) : l.store.Grows (l.instantiate m).1 := by
  unfold instantiate
  split
  · exact .refl _
  · exact l.store.instantiate_grows m _

/-- What was made for one reference, behind all that others have made. -/
structure Added (l : Linker) (r : Compiled) (k : Linker) : Prop extends l.Keeps k where
  none_iff (key : String × String) :
    k.definitions.lookup key = none ↔ l.definitions.lookup key = none ∧ ¬ r.Names key

/-- A reference that can be linked alone imports from the host only, so it stops nowhere else
either, and touches nothing that others have made. -/
theorem AtWork.instantiate_alone (h : l.AtWork host) (hv : r.module.isValid)
    (hr : r.LinksAlone host) :
    ∃ t owner, l.instantiate r.module = (t, .ok owner) ∧ l.store.Keeps t ∧ host.Answers t.host ∧
      (r.LinksSilently host → l.store.host = host → t.host = host) := by
  obtain ⟨l₀, hl₀⟩ := hr
  obtain ⟨s₀, owner₀, _, hmade₀, _, _, hdefined⟩ := addReference_eq_ok hl₀
  obtain ⟨imports, hresolve, -⟩ := instantiate_eq_ok hmade₀
  have hclosed := ofHost_closed host
  have hs : (ofHost host).store.Twins (l.store.host = host) (ofHost host).hostPairing l.store
      l.store := by
    refine hclosed.twins.store.between hclosed.diagonal (.refl _) h.keeps ⟨?_, ⟨rfl, rfl⟩, ?_⟩
    · rw [host_ofHost]
      exact h.answers.symm
    · rw [host_ofHost]
      exact id
  have hd : ∀ i ∈ r.module.imports, Option.Rel (Extern.Alike (ofHost host).hostPairing)
      ((ofHost host).definitions.lookup (i.module, i.name))
      (l.definitions.lookup (i.module, i.name)) := by
    intro i hi
    obtain ⟨e, he⟩ := lookup_of_resolve hresolve hi
    rw [he, h.known he]
    exact .some (hclosed.alike he)
  obtain ⟨Q, hext, ht, hmade⟩ := instantiate_twins hs hclosed.twins.zero hv hd
  have hgrows := l.instantiate_grows r.module
  rw [hmade₀] at ht hmade
  generalize l.instantiate r.module = made at ht hmade hgrows ⊢
  obtain ⟨t, result⟩ := made
  cases hmade with
  | @ok _ owner ho =>
    dsimp only at ht hgrows
    -- the functions of the host are paired, and what is new
    have huntouched (kind : ExternKind) (hk : kind ≠ .func) {a : Nat}
        (ha : a < l.store.count kind) : ∀ b, ¬ Q.places kind b a := by
      intro b hp
      obtain ⟨hfunc, -⟩ | ⟨n, -, hnew⟩ := hext.new_places hp
      · exact hk hfunc
      · omega
    have hlt {α : Type} {xs : Array α} {a : Nat} {x : α} (hx : xs[a]? = some x) : a < xs.size :=
      (Array.getElem?_eq_some_iff.1 hx).1
    refine ⟨t, owner, rfl, ⟨hgrows.functions, fun a x hx => ?_, fun a x hx => ?_,
      fun a x hx => ?_, fun a x hx => ?_⟩, h.answers.trans ht.host.right, ?_⟩
    · exact ⟨x, (ht.tables.untouched (huntouched .table nofun (hlt hx))).trans hx, rfl⟩
    · exact ⟨x, (ht.memories.untouched (huntouched .memory nofun (hlt hx))).trans hx, rfl⟩
    · exact ⟨x, (ht.globals.untouched (huntouched .global nofun (hlt hx))).trans hx, rfl⟩
    · refine ⟨x, (ht.instances.untouched fun b ho => ?_).trans hx, rfl⟩
      obtain hno | ⟨n, -, hnew⟩ := hext.new_owners ho
      · exact hno
      · have := hlt hx
        omega
    · rintro ⟨l₁, hl₁, hsilent⟩ hl
      cases hl₀.symm.trans hl₁
      have hstore := defineExports_store hdefined
      rw [ht.host.eq_of_same hl, ← hsilent, hstore]

/-- The names that are defined are those that the reference exports something by. -/
theorem lookup_defined_eq_none {exports : List (String × Extern)}
    (hnames : exports.map Prod.fst = r.module.exports.map Export.name) (key : String × String) :
    (exports.map fun d => ((r.name, d.1), d.2)).reverse.lookup key = none ↔ ¬ r.Names key := by
  have hexported {name : String} : (∃ d ∈ exports, d.1 = name) ↔
      ∃ e ∈ r.module.exports, e.name = name := by
    rw [← List.mem_map, ← List.mem_map, hnames]
  rw [List.lookup_eq_none_iff]
  constructor
  · rintro hno ⟨hmodule, hname⟩
    obtain ⟨d, hm, hd⟩ := hexported.2 hname
    have hne := hno _ (List.mem_reverse.2 (List.mem_map_of_mem hm))
    rw [bne_iff_ne] at hne
    exact hne (Prod.ext hmodule hd.symm)
  · intro hno p hp
    obtain ⟨d, hm, rfl⟩ := List.mem_map.1 (List.mem_reverse.1 hp)
    rw [bne_iff_ne]
    rintro rfl
    exact hno ⟨rfl, hexported.1 ⟨d, hm, rfl⟩⟩

/-- Names that are free are defined, and none else. -/
theorem defineExports_added {s : Store} (hs : l.store.Keeps s) (hv : r.module.isValid)
    {exports : List (String × Extern)}
    (hnames : exports.map Prod.fst = r.module.exports.map Export.name) :
    ((∀ key, r.Names key → l.definitions.lookup key = none) ∧
      ∃ k, defineExports { l with store := s } r.name exports = .ok k ∧ l.Added r k) ∨
    ((∃ key, r.Names key ∧ l.definitions.lookup key ≠ none) ∧
      ∃ fault, defineExports { l with store := s } r.name exports = .error fault) := by
  have hnodup : (exports.map Prod.fst).Nodup := hnames ▸ Module.nodup_exports hv
  have hexported {name : String} : (∃ d ∈ exports, d.1 = name) ↔
      ∃ e ∈ r.module.exports, e.name = name := by
    rw [← List.mem_map, ← List.mem_map, hnames]
  obtain ⟨hd, hfree⟩ | ⟨name, hd, d, hm, htaken⟩ :=
    defineExports_cases { l with store := s } r.name exports hnodup
  · have hfree' : ∀ key, r.Names key → l.definitions.lookup key = none := by
      rintro ⟨module, name⟩ ⟨rfl, hname⟩
      obtain ⟨d, hm, rfl⟩ := hexported.2 hname
      exact hfree d hm
    have hnew := lookup_defined_eq_none hnames
    refine .inl ⟨hfree', _, hd, ⟨hs, fun {key e} he => ?_⟩, fun key => ?_⟩
    · have hno : ¬ r.Names key := fun hn => by
        rw [hfree' key hn] at he
        cases he
      dsimp only
      rw [List.lookup_append, (hnew key).2 hno, he]
      rfl
    · dsimp only
      rw [List.lookup_append, Option.or_eq_none_iff, hnew, and_comm]
  · refine .inr ⟨⟨(r.name, d.1), ⟨rfl, hexported.1 ⟨d, hm, rfl⟩⟩, htaken⟩, _, hd⟩

/-- **A reference that can be linked alone can be linked anywhere**, unless one of its names is
taken. -/
theorem AtWork.addReference_cases (h : l.AtWork host) (hv : r.module.isValid)
    (hr : r.LinksAlone host) :
    ((∀ key, r.Names key → l.definitions.lookup key = none) ∧
      ∃ k, l.addReference r = .ok k ∧ l.Added r k ∧ k.AtWork host ∧
        (r.LinksSilently host → l.store.host = host → k.store.host = host)) ∨
    ((∃ key, r.Names key ∧ l.definitions.lookup key ≠ none) ∧
      ∃ e, l.addReference r = .error e) := by
  obtain ⟨t, owner, hmade, hkeeps, hanswers, hsilent⟩ := h.instantiate_alone hv hr
  obtain ⟨imports, -, hi⟩ := instantiate_eq_ok hmade
  obtain ⟨i, hi', hnames⟩ := Store.instantiate_names (congrArg Prod.snd hi)
  rw [hi] at hi'
  obtain ⟨hfree, k, hk, hadded⟩ | ⟨htaken, fault, hfault⟩ := defineExports_added hkeeps hv hnames
  · have hadd : l.addReference r = .ok k := by
      simp only [addReference, hmade, hi', Option.map_some, Option.getD_some, hk]
    have hstore : k.store = t := defineExports_store hk
    obtain ⟨D, hD⟩ := h.closed
    refine .inl ⟨hfree, k, hadd, hadded, ⟨h.toKeeps.trans hadded.toKeeps, hstore ▸ hanswers, ?_⟩,
      fun hs hl => ?_⟩
    · obtain ⟨Q, k₁, k₂, hk₁, hk₂, hext, hself⟩ | ⟨e, -, he, -⟩ := addReference_twins hD.twins hv
      · cases hadd.symm.trans hk₁
        cases hadd.symm.trans hk₂
        exact ⟨Q, hD.diagonal.extends hext, { hself with store := hself.store.rebase }⟩
      · cases hadd.symm.trans he
    · rw [hstore]
      exact hsilent hs hl
  · have hadd : l.addReference r = .error (t, fault) := by
      simp only [addReference, hmade, hi', Option.map_some, Option.getD_some, hfault]
    exact .inr ⟨htaken, _, hadd⟩

variable {l' k' : Linker} {P : Pairing} {base : Store}

/-- The names of a reference that was added stand for what its instance exports. -/
theorem lookup_of_names (hv : r.module.isValid) {exports : List (String × Extern)}
    (hnames : exports.map Prod.fst = r.module.exports.map Export.name)
    (hk : l.defineExports r.name exports = .ok k) {key : String × String} (hkey : r.Names key) :
    ∃ d, (exports.map fun d => ((r.name, d.1), d.2)).reverse.lookup key = some d ∧
      k.definitions.lookup key = some d := by
  have hnodup : (exports.map Prod.fst).Nodup := hnames ▸ Module.nodup_exports hv
  obtain ⟨hd, -⟩ | ⟨name, hd, -⟩ := defineExports_cases l r.name exports hnodup
  · cases hk.symm.trans hd
    cases hnew : (exports.map fun d => ((r.name, d.1), d.2)).reverse.lookup key with
    | none => exact absurd hkey ((lookup_defined_eq_none hnames key).1 hnew)
    | some d =>
      refine ⟨d, rfl, ?_⟩
      dsimp only
      rw [List.lookup_append, hnew]
      rfl
  · cases hk.symm.trans hd

/-- A reference that was added to both linkers is alike in both, whatever else they have made. -/
theorem addReference_alike (hs : l.store.Twins False P l'.store base) (hzero : P.places .func 0 0)
    (hv : r.module.isValid)
    (hd : ∀ i ∈ r.module.imports, Option.Rel (Extern.Alike P)
      (l.definitions.lookup (i.module, i.name)) (l'.definitions.lookup (i.module, i.name)))
    (hk : l.addReference r = .ok k) (hk' : l'.addReference r = .ok k') :
    ∃ Q, P.Extends Q l.store l'.store ∧ k.store.Twins False Q k'.store base ∧
      ∀ key, r.Names key → ∃ d e, k.definitions.lookup key = some d ∧
        k'.definitions.lookup key = some e ∧ d.Alike Q e := by
  obtain ⟨s, owner, i, hmade, hi, hnames, hdefined⟩ := addReference_eq_ok hk
  obtain ⟨s', owner', i', hmade', hi', hnames', hdefined'⟩ := addReference_eq_ok hk'
  obtain ⟨Q, hext, hs', hmatch⟩ := instantiate_twins hs hzero hv hd
  rw [hmade, hmade'] at hs' hmatch
  cases hmatch with
  | ok ho =>
    obtain ⟨j, j', hj, hj', hjj⟩ := hs'.instances.related ho
    cases hi.symm.trans hj
    cases hi'.symm.trans hj'
    refine ⟨Q, hext, ?_, fun key hkey => ?_⟩
    · rw [defineExports_store hdefined, defineExports_store hdefined']
      exact hs'
    · obtain ⟨d, hd, hdk⟩ := lookup_of_names hv hnames hdefined hkey
      obtain ⟨e, he, hek⟩ := lookup_of_names hv hnames' hdefined' hkey
      have hexports : List.Forall₂ (fun d e => e.1 = d.1 ∧ d.2.Alike Q e.2)
          (i.exports.map fun d => ((r.name, d.1), d.2)).reverse
          (i'.exports.map fun d => ((r.name, d.1), d.2)).reverse := by
        refine List.rel_reverse ?_
        rw [List.forall₂_map_left_iff, List.forall₂_map_right_iff]
        exact hjj.exports.imp fun d e hde => ⟨congrArg (r.name, ·) hde.1, hde.2⟩
      have hlookup := forall₂_lookup hexports key
      rw [hd, he] at hlookup
      cases hlookup with
      | some hde => exact ⟨d, e, hdk, hek, hde⟩

end Linker

/-! ## Two references in either order -/

/-- What either pairing pairs. -/
def Pairing.join (P Q : Pairing) : Pairing where
  places kind a b := P.places kind a b ∨ Q.places kind a b
  owners a b := P.owners a b ∨ Q.owners a b

theorem Pairing.le_join_left (P Q : Pairing) : P.Le (P.join Q) where
  places := .inl
  owners := .inl

theorem Pairing.le_join_right (P Q : Pairing) : Q.Le (P.join Q) where
  places := .inr
  owners := .inr

/-- Both sides began with the same `n` places. What was made last on the one was made first on the
other, so no place is paired with two. -/
theorem biUnique_join {d p q : Nat → Nat → Prop} {n n₁ n₂ : Nat}
    (hd : ∀ {a b}, d a b → a = b ∧ a < n)
    (hp : ∀ {a b}, p a b → a < n₁ ∧ (d a b ∨ ∃ k, a = n + k ∧ b = n₂ + k))
    (hq : ∀ {a b}, q a b → b < n₂ ∧ (d a b ∨ ∃ k, a = n₁ + k ∧ b = n + k))
    (hone : Relator.BiUnique p) (hone' : Relator.BiUnique q) :
    Relator.BiUnique fun a b => p a b ∨ q a b := by
  -- something new of one side is not paired by the other
  have cross {a b c e : Nat} (hab : p a b) (hce : q c e) : a = c ↔ b = e := by
    obtain ⟨ha, hab | ⟨k, rfl, rfl⟩⟩ := hp hab
    · obtain ⟨he, hce | ⟨k', rfl, rfl⟩⟩ := hq hce
      · have := hd hab
        have := hd hce
        omega
      · have := hd hab
        omega
    · obtain ⟨he, hce | ⟨k', rfl, rfl⟩⟩ := hq hce
      · have := hd hce
        omega
      · omega
  constructor
  · rintro a b c (hac | hac) (hbc | hbc)
    · exact hone.1 hac hbc
    · exact (cross hac hbc).2 rfl
    · exact ((cross hbc hac).2 rfl).symm
    · exact hone'.1 hac hbc
  · rintro a b c (hab | hab) (hac | hac)
    · exact hone.2 hab hac
    · exact (cross hab hac).1 rfl
    · exact ((cross hac hab).1 rfl).symm
    · exact hone'.2 hab hac

theorem Paired.join {α : Type} {p q : Nat → Nat → Prop} {R S T : α → α → Prop}
    {base base' xs ys xs' ys' : Array α} (h : Paired p R base xs ys')
    (h' : Paired q S base' xs' ys) (hx : Kept (· = ·) xs xs') (hy : Kept (· = ·) ys ys')
    (hR : ∀ x y, R x y → T x y) (hS : ∀ x y, S x y → T x y) :
    Paired (fun a b => p a b ∨ q a b) T ys' xs' ys' where
  related {a b} hab := by
    obtain hab | hab := hab
    · obtain ⟨x, y, hxa, hyb, hxy⟩ := h.related hab
      exact ⟨x, y, hx.getElem? hxa, hyb, hR x y hxy⟩
    · obtain ⟨x, y, hxa, hyb, hxy⟩ := h'.related hab
      exact ⟨x, y, hxa, hy.getElem? hyb, hS x y hxy⟩
  untouched _ := rfl

theorem Store.Twins.join {P Q : Pairing} {base base' s t s' t' : Store}
    (h : s.Twins False P t' base) (h' : t.Twins False Q s' base') (hs : s.Keeps t)
    (hs' : s'.Keeps t') (hone : (P.join Q).OneToOne) (hh : t.host.Twins False t'.host t'.host) :
    t.Twins False (P.join Q) t' t' where
  oneToOne := hone
  functions := h.functions.join h'.functions hs.functions hs'.functions
    (fun _ _ => .mono (P.le_join_left Q)) (fun _ _ => .mono (P.le_join_right Q))
  tables := h.tables.join h'.tables hs.tables hs'.tables
    (fun _ _ => .mono (P.le_join_left Q)) (fun _ _ => .mono (P.le_join_right Q))
  memories := h.memories.join h'.memories hs.memories hs'.memories (fun _ _ => id) (fun _ _ => id)
  globals := h.globals.join h'.globals hs.globals hs'.globals
    (fun _ _ => .mono (P.le_join_left Q)) (fun _ _ => .mono (P.le_join_right Q))
  instances := h.instances.join h'.instances hs.instances hs'.instances
    (fun _ _ => .mono (P.le_join_left Q)) (fun _ _ => .mono (P.le_join_right Q))
  host := hh

theorem Pairing.lt_count {same : Prop} {P : Pairing} {base s s' : Store}
    (h : s.Twins same P s' base) {kind : ExternKind} {a b : Nat} (hp : P.places kind a b) :
    a < s.count kind ∧ b < s'.count kind := by
  cases kind with
  | func => exact h.functions.lt hp
  | table => exact h.tables.lt hp
  | memory => exact h.memories.lt hp
  | global => exact h.globals.lt hp

namespace Linker

variable {l l₁ k l₁' k' : Linker} {q r : Compiled} {host : Host}

/-- A reference that `l` could add is added alike wherever all that `l` had is kept. -/
theorem Closed.addReference_beside {D : Pairing} {x x' y y' : Linker} (hD : l.Closed D)
    (hx : l.Keeps x) (hy : l.Keeps y) (hanswers : y.store.host.Answers x.store.host)
    (hv : r.module.isValid) (hl : l.addReference r = .ok l₁) (hx' : x.addReference r = .ok x')
    (hy' : y.addReference r = .ok y') :
    ∃ Q, D.Extends Q x.store y.store ∧ x'.store.Twins False Q y'.store y.store ∧
      ∀ key, r.Names key → ∃ d e, x'.definitions.lookup key = some d ∧
        y'.definitions.lookup key = some e ∧ d.Alike Q e := by
  obtain ⟨_, _, _, hmade, -⟩ := addReference_eq_ok hl
  obtain ⟨_, hresolve, -⟩ := instantiate_eq_ok hmade
  refine addReference_alike (hD.twins.store.between hD.diagonal hx.keeps hy.keeps
    ⟨hanswers, ⟨rfl, rfl⟩, False.elim⟩) hD.twins.zero hv (fun i hi => ?_) hx' hy'
  obtain ⟨e, he⟩ := lookup_of_resolve hresolve hi
  rw [hx.known he, hy.known he]
  exact .some (hD.alike he)

/-- What was made for two references is alike, whichever came first. -/
theorem AtWork.join (h : l.AtWork host) (hv : q.module.isValid) (hv' : r.module.isValid)
    (hq : l.addReference q = .ok l₁) (hr : l₁.addReference r = .ok k)
    (hr' : l.addReference r = .ok l₁') (hq' : l₁'.addReference q = .ok k')
    (ha : l.Added q l₁) (hb : l₁.Added r k) (hb' : l.Added r l₁') (ha' : l₁'.Added q k')
    (h₁ : l₁.AtWork host) (h₁' : l₁'.AtWork host) (hk : k.AtWork host) (hk' : k'.AtWork host) :
    ∃ Q, k.Twins False Q k'.store k' := by
  obtain ⟨D, hD⟩ := h.closed
  obtain ⟨P, hP, hs, hqs⟩ := hD.addReference_beside (.refl l) hb'.toKeeps
    (h₁'.answers.symm.trans h.answers) hv hq hq hq'
  obtain ⟨Q, hQ, ht, hrs⟩ := hD.addReference_beside ha.toKeeps (.refl l)
    (h.answers.symm.trans h₁.answers) hv' hr' hr hr'
  have hself {kind : ExternKind} {a b : Nat} (hp : D.places kind a b) :
      a = b ∧ a < l.store.count kind :=
    ⟨hD.diagonal.places hp, (Pairing.lt_count hD.twins.store hp).1⟩
  have hone : (P.join Q).OneToOne := {
    places kind := biUnique_join hself
      (fun hp => ⟨(Pairing.lt_count hs hp).1, hP.new_places hp⟩)
      (fun hp => ⟨(Pairing.lt_count ht hp).2, hQ.new_places hp⟩)
      (hs.oneToOne.places kind) (ht.oneToOne.places kind)
    owners := biUnique_join
      (fun ho => ⟨hD.diagonal.owners ho, (hD.twins.store.instances.lt ho).1⟩)
      (fun ho => ⟨(hs.instances.lt ho).1, hP.new_owners ho⟩)
      (fun ho => ⟨(ht.instances.lt ho).2, hQ.new_owners ho⟩)
      hs.oneToOne.owners ht.oneToOne.owners }
  refine ⟨P.join Q, hs.join ht hb.keeps ha'.keeps hone
    ⟨hk'.answers.symm.trans hk.answers, ⟨rfl, rfl⟩, False.elim⟩, .inl (hP.places hD.twins.zero),
    fun key => ?_⟩
  by_cases hqk : q.Names key
  · obtain ⟨d, e, hd, he, hde⟩ := hqs key hqk
    rw [hb.known hd, he]
    exact .some (hde.mono (P.le_join_left Q))
  by_cases hrk : r.Names key
  · obtain ⟨d, e, hd, he, hde⟩ := hrs key hrk
    rw [hd, ha'.known he]
    exact .some (hde.mono (P.le_join_right Q))
  -- neither exports by this name, so both have what was there before
  cases hl : l.definitions.lookup key with
  | none =>
    rw [(hb.none_iff key).2 ⟨(ha.none_iff key).2 ⟨hl, hqk⟩, hrk⟩,
      (ha'.none_iff key).2 ⟨(hb'.none_iff key).2 ⟨hl, hrk⟩, hqk⟩]
    exact .none
  | some d =>
    rw [hb.known (ha.known hl), ha'.known (hb'.known hl)]
    exact .some (((hD.alike hl).mono hP.toLe).mono (P.le_join_left Q))

end Linker

end ScriptHost.Wasm

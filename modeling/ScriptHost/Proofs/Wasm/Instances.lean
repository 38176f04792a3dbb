import Mathlib.Data.List.Forall2
import ScriptHost.Proofs.Wasm.Growth

/-!
# The types of what an instance exports

What a module's exports will be is known from the module and from the types that satisfy its
imports (`Module.exportedType`). An instance that is made exports just that
(`Store.instantiate_exports`); code that runs after its places are made, be it that of its start
function, only lets the store grow (`Store.instantiate_grows`).
-/

namespace ScriptHost.Wasm

/-! ## Types of what stands at a place -/

namespace ExternType

def kind : ExternType → ExternKind
  | .func _ => .func
  | .table _ => .table
  | .memory _ => .memory
  | .global _ => .global

/-- What something of the first type has become while code ran is of the second: only the size of
a table or memory may be another, and no smaller. -/
inductive Grows : ExternType → ExternType → Prop
  | func (t : FuncType) : Grows (.func t) (.func t)
  | global (t : GlobalType) : Grows (.global t) (.global t)
  | table {n k : Nat} (max : Option Nat) (h : n ≤ k) : Grows (.table ⟨n, max⟩) (.table ⟨k, max⟩)
  | memory {n k : Nat} (max : Option Nat) (h : n ≤ k) : Grows (.memory ⟨n, max⟩) (.memory ⟨k, max⟩)

theorem Grows.refl (t : ExternType) : t.Grows t := by
  cases t with
  | func t => exact .func t
  | global t => exact .global t
  | table l => exact .table l.max (Nat.le_refl _)
  | memory l => exact .memory l.max (Nat.le_refl _)

theorem Grows.trans {t u v : ExternType} (h : t.Grows u) (h' : u.Grows v) : t.Grows v := by
  cases h with
  | func t => exact h'
  | global t => exact h'
  | table max h =>
    cases h' with
    | table _ h' => exact .table max (Nat.le_trans h h')
  | memory max h =>
    cases h' with
    | memory _ h' => exact .memory max (Nat.le_trans h h')

theorem Grows.kind {t u : ExternType} (h : t.Grows u) : u.kind = t.kind := by
  cases h <;> rfl

/-- What has grown fits wherever it did before. -/
theorem Grows.fits {t u asked : ExternType} (h : t.Grows u) (hf : t.fits asked) : u.fits asked := by
  cases h with
  | func t => exact hf
  | global t => exact hf
  | table max h =>
    cases asked with
    | table l =>
      simp only [ExternType.fits, Bool.and_eq_true, decide_eq_true_eq] at hf ⊢
      exact ⟨Nat.le_trans hf.1 h, hf.2⟩
    | _ => cases hf
  | memory max h =>
    cases asked with
    | memory l =>
      simp only [ExternType.fits, Bool.and_eq_true, decide_eq_true_eq] at hf ⊢
      exact ⟨Nat.le_trans hf.1 h, hf.2⟩
    | _ => cases hf

theorem kind_of_fits {t asked : ExternType} (h : t.fits asked) : t.kind = asked.kind := by
  cases t <;> cases asked <;> first | rfl | cases h

end ExternType

def ImportType.kind : ImportType → ExternKind
  | .func _ => .func
  | .table _ => .table
  | .memory _ => .memory
  | .global _ => .global

theorem Store.kind_of_externType {s : Store} {e : Extern} {t : ExternType}
    (h : s.externType? e = some t) : t.kind = e.kind := by
  obtain ⟨kind, a⟩ := e
  cases kind <;>
  · obtain ⟨_, _, rfl⟩ := Option.map_eq_some_iff.1 h
    rfl

theorem Store.Grows.externType? {s s' : Store} (h : s.Grows s') {e : Extern} {t : ExternType}
    (ht : s.externType? e = some t) : ∃ u, s'.externType? e = some u ∧ t.Grows u := by
  obtain ⟨kind, a⟩ := e
  cases kind with
  | func =>
    obtain ⟨f, hf, rfl⟩ := Option.map_eq_some_iff.1 ht
    obtain ⟨g, hg, rfl⟩ := h.functions a f hf
    exact ⟨_, Option.map_eq_some_iff.2 ⟨f, hg, rfl⟩, .func _⟩
  | table =>
    obtain ⟨x, hx, rfl⟩ := Option.map_eq_some_iff.1 ht
    obtain ⟨y, hy, hsize, hmax⟩ := h.tables a x hx
    exact ⟨_, Option.map_eq_some_iff.2 ⟨y, hy, rfl⟩, hmax ▸ .table _ hsize⟩
  | memory =>
    obtain ⟨m, hm, rfl⟩ := Option.map_eq_some_iff.1 ht
    obtain ⟨n, hn, hpages, hmax⟩ := h.memories a m hm
    exact ⟨_, Option.map_eq_some_iff.2 ⟨n, hn, rfl⟩, hmax ▸ .memory _ hpages⟩
  | global =>
    obtain ⟨g, hg, rfl⟩ := Option.map_eq_some_iff.1 ht
    obtain ⟨k, hk, htype⟩ := h.globals a g hg
    exact ⟨_, Option.map_eq_some_iff.2 ⟨k, hk, rfl⟩, htype ▸ .global _⟩

/-! ## Growth while an instance is made -/

namespace Store

theorem allocate_grows (s : Store) (m : Module) (imports : List Extern) :
    s.Grows (s.allocate m imports).1 where
  functions := .append (fun _ => rfl) _ _
  tables := .append TableInstance.Grows.refl _ _
  memories := .append Memory.Grows.refl _ _
  globals := .append GlobalInstance.Stays.refl _ _
  instances := .push Instance.Stays.refl _ _

/-- The store after segments were copied, all or up to the first that does not fit. -/
def copied : Except (Store × Trap) Store → Store
  | .ok s => s
  | .error (s, _) => s

theorem copyElements_grows (s : Store) (owner : Nat) (segments : List (ElementSegment × Nat)) :
    s.Grows (copied (s.copyElements owner segments)) := by
  induction segments generalizing s with
  | nil => exact .refl s
  | cons segment rest ih =>
    obtain ⟨e, n⟩ := segment
    rw [copyElements]
    split
    · exact .refl s
    · rename_i i hi
      have hd := Store.Grows.setInstance
        (j := { i with elements := i.elements.setIfInBounds n [] }) hi rfl
      dsimp only
      split
      · exact ih s
      · exact hd.trans (ih _)
      · split
        · exact .refl s
        · rename_i ht
          split
          · rename_i hw
            have ht := Store.table?_eq_some ht
            exact (hd.trans (.setTable ht (TableInstance.write?_grows hw))).trans (ih _)
          · exact .refl s

theorem copyData_grows (s : Store) (owner : Nat) (segments : List (DataSegment × Nat)) :
    s.Grows (copied (s.copyData owner segments)) := by
  induction segments generalizing s with
  | nil => exact .refl s
  | cons segment rest ih =>
    obtain ⟨d, n⟩ := segment
    rw [copyData]
    split
    · exact .refl s
    · rename_i i hi
      have hd := Store.Grows.setInstance
        (j := { i with data := i.data.setIfInBounds n [] }) hi rfl
      dsimp only
      split
      · exact ih s
      · exact ih s
      · split
        · exact .refl s
        · rename_i hm
          split
          · rename_i hw
            have hm := Store.memory?_eq_some hm
            exact (hd.trans (.setMemory hm (Memory.write?_grows hw))).trans (ih _)
          · exact .refl s

theorem start_grows (s : Store) (owner : Nat) (m : Module) : s.Grows (s.start owner m).1 := by
  unfold start
  split
  · rename_i f i _ _
    have hc := s.call_grows (i.functions.getD f 0) []
    split
    · rename_i h
      rw [h] at hc
      exact hc
    · rename_i h
      rw [h] at hc
      exact hc
  · exact .refl s

/-- Whatever becomes of an instance, its places are made and the store grows from there. -/
theorem allocate_grows_instantiate (s : Store) (m : Module) (imports : List Extern) :
    (s.allocate m imports).1.Grows (s.instantiate m imports).1 := by
  unfold instantiate
  have he := copyElements_grows (s.allocate m imports).1 (s.allocate m imports).2
    m.elements.zipIdx
  dsimp only
  split
  · rename_i h
    rw [h] at he
    exact he
  · rename_i s' h
    rw [h] at he
    have hd := copyData_grows s' (s.allocate m imports).2 m.data.zipIdx
    split
    · rename_i h
      rw [h] at hd
      exact he.trans hd
    · rename_i h
      rw [h] at hd
      exact (he.trans hd).trans (start_grows _ _ m)

theorem instantiate_grows (s : Store) (m : Module) (imports : List Extern) :
    s.Grows (s.instantiate m imports).1 :=
  (s.allocate_grows m imports).trans (s.allocate_grows_instantiate m imports)

end Store

/-! ## What a module exports -/

namespace Module

/-- The types of what a module defines itself. -/
def own (m : Module) : ExternKind → List ExternType
  | .func => m.functions.map fun t => .func (m.types[t]?.getD default)
  | .table => m.tables.map fun t => .table t.limits
  | .memory => m.memories.map .memory
  | .global => m.globals.map fun g => .global g.type

/-- The types of all that a module has of a kind, if `found` is what satisfies its imports. -/
def typesOf (m : Module) (found : List ExternType) (kind : ExternKind) : List ExternType :=
  (found.filter fun t => t.kind = kind) ++ m.own kind

/-- The type of what an export names, if `found` is what satisfies the imports. -/
def exportedType (m : Module) (found : List ExternType) (e : Export) : ExternType :=
  (m.typesOf found e.kind).getD e.index default

/-- Types that satisfy the imports of a module, one for each. -/
def SatisfiedBy (m : Module) (found : List ExternType) : Prop :=
  List.Forall₂ (fun i t => ∃ asked, m.importType? i = some asked ∧ t.fits asked) m.imports found

theorem exportType_isSome {m : Module} (h : m.isValid) {e : Export} (he : e ∈ m.exports) :
    (m.exportType? e).isSome := by
  simp only [isValid, Bool.and_eq_true, List.all_eq_true] at h
  exact h.1.1.1.1.1.1.1.2 e he

theorem nodup_exports {m : Module} (h : m.isValid) : (m.exports.map Export.name).Nodup := by
  simp only [isValid, Bool.and_eq_true, decide_eq_true_eq] at h
  exact h.1.1.1.1.1.1.2

theorem length_codes {m : Module} (h : m.isValid) : m.functions.length = m.codes.length := by
  simp only [isValid, Bool.and_eq_true, decide_eq_true_eq] at h
  exact h.1.2

theorem kind_of_importType {m : Module} {i : Import} {asked : ExternType}
    (h : m.importType? i = some asked) : asked.kind = i.type.kind := by
  unfold importType? at h
  split at h
  · rename_i n hi
    obtain ⟨_, -, rfl⟩ := Option.map_eq_some_iff.1 h
    rw [hi]
    rfl
  all_goals
    rename_i hi
    cases h
    rw [hi]
    rfl

theorem length_filter_kind {m : Module} {found : List ExternType} (h : m.SatisfiedBy found)
    {α : Type} (kind : ExternKind) (part : Import → Option α)
    (hp : ∀ i asked, m.importType? i = some asked → ((part i).isSome ↔ asked.kind = kind)) :
    (found.filter fun t => t.kind = kind).length = (m.imports.filterMap part).length := by
  rw [SatisfiedBy] at h
  generalize m.imports = imports at h ⊢
  induction h with
  | nil => rfl
  | @cons i t imports found ht _ ih =>
    obtain ⟨asked, ha, hf⟩ := ht
    have hk := ExternType.kind_of_fits hf
    have hi := hp i asked ha
    by_cases h : asked.kind = kind
    · obtain ⟨x, hx⟩ := Option.isSome_iff_exists.1 (hi.2 h)
      rw [List.filter_cons_of_pos (by simpa [hk] using h), List.filterMap_cons_some hx,
        List.length_cons, List.length_cons, ih]
    · have hx : part i = none := by
        rw [← Option.not_isSome_iff_eq_none, hi]
        exact h
      rw [List.filter_cons_of_neg (by simpa [hk] using h), List.filterMap_cons_none hx, ih]

/-- The number that a valid module exports something by is one of its own. -/
theorem index_lt {m : Module} (hv : m.isValid) {found : List ExternType} (h : m.SatisfiedBy found)
    {e : Export} (he : e ∈ m.exports) : e.index < (m.typesOf found e.kind).length := by
  have hs := exportType_isSome hv he
  rw [typesOf, List.length_append]
  unfold exportType? at hs
  cases hk : e.kind with
  | func =>
    simp only [hk, Option.isSome_map, functionType?, Option.bind_eq_bind,
      Option.isSome_bind] at hs
    have hlt : e.index < m.functionTypes.length := by
      by_contra hge
      rw [List.getElem?_eq_none (Nat.le_of_not_lt hge)] at hs
      cases hs
    rw [functionTypes, List.length_append, ← length_filter_kind h .func] at hlt
    · simpa only [own, List.length_map] using hlt
    · intro i asked ha
      rw [kind_of_importType ha]
      cases i.type <;> simp [ImportType.kind]
  | table =>
    simp only [hk, Option.isSome_map, isSome_getElem?] at hs
    rw [allTables, List.length_append, ← length_filter_kind h .table] at hs
    · simpa only [own, List.length_map] using hs
    · intro i asked ha
      rw [kind_of_importType ha]
      cases i.type <;> simp [ImportType.kind]
  | memory =>
    simp only [hk, Option.isSome_map, isSome_getElem?] at hs
    rw [allMemories, List.length_append, ← length_filter_kind h .memory] at hs
    · simpa only [own, List.length_map] using hs
    · intro i asked ha
      rw [kind_of_importType ha]
      cases i.type <;> simp [ImportType.kind]
  | global =>
    simp only [hk, Option.isSome_map, isSome_getElem?] at hs
    rw [allGlobals, importedGlobals, List.length_append, ← length_filter_kind h .global] at hs
    · simpa only [own, List.length_map] using hs
    · intro i asked ha
      rw [kind_of_importType ha]
      cases i.type <;> simp [ImportType.kind]

end Module

namespace Store

variable {s : Store} {m : Module} {imports : List Extern} {found : List ExternType}

/-- The places that an instance gets for what it has of a kind. -/
def placesOf (s : Store) (m : Module) (imports : List Extern) (kind : ExternKind) : Array Nat :=
  let imported := (imports.filter fun e => e.kind = kind).map Extern.address
  match kind with
  | .func => places imported s.functions.size m.functions.length
  | .table => places imported s.tables.size m.tables.length
  | .memory => places imported s.memories.size m.memories.length
  | .global => places imported s.globals.size m.globals.length

/-- The instance whose places are made. -/
theorem allocate_instance (s : Store) (m : Module) (imports : List Extern) :
    ∃ i, (s.allocate m imports).1.instances[(s.allocate m imports).2]? = some i ∧
      i.exports = m.exports.map fun e =>
        (e.name, ⟨e.kind, (s.placesOf m imports e.kind).getD e.index 0⟩) := by
  refine ⟨_, Array.getElem?_push_size, List.map_congr_left fun e _ => ?_⟩
  obtain ⟨name, kind, index⟩ := e
  cases kind <;> rfl

/-- What stood at a place before stands there with the same type. -/
theorem externType?_allocate {e : Extern} {t : ExternType} (h : s.externType? e = some t) :
    (s.allocate m imports).1.externType? e = some t := by
  have old {α : Type} {xs more : Array α} {a : Nat} {f : α → ExternType}
      (h : xs[a]?.map f = some t) : (xs ++ more)[a]?.map f = some t := by
    obtain ⟨x, hx, rfl⟩ := Option.map_eq_some_iff.1 h
    rw [Array.getElem?_append_left (Array.getElem?_eq_some_iff.1 hx).1, hx]
    rfl
  obtain ⟨kind, a⟩ := e
  cases kind <;> exact old h

theorem map_types_imported (m : Module) (all : List Extern)
    (h : List.Forall₂ (fun e t => s.externType? e = some t) imports found) (kind : ExternKind) :
    ((imports.filter fun e => e.kind = kind).map Extern.address).map
        (fun a => (s.allocate m all).1.externType? ⟨kind, a⟩) =
      (found.filter fun t => t.kind = kind).map some := by
  induction h with
  | nil => rfl
  | @cons e t imports found ht _ ih =>
    have hk := kind_of_externType ht
    by_cases he : e.kind = kind
    · rw [List.filter_cons_of_pos (by simpa using he),
        List.filter_cons_of_pos (by simpa [hk] using he), List.map_cons, List.map_cons,
        List.map_cons, ih, ← he, externType?_allocate ht]
    · rw [List.filter_cons_of_neg (by simpa using he),
        List.filter_cons_of_neg (by simpa [hk] using he), ih]

theorem map_types_new {α : Type} (xs : Array α) (new : List α) (f : α → ExternType) :
    (List.range new.length).map (fun j => (xs ++ new.toArray)[xs.size + j]?.map f) =
      (new.map f).map some := by
  refine List.ext_getElem (by simp) fun j h _ => ?_
  simp only [List.length_map, List.length_range] at h
  simp [Array.getElem?_append_right, h]

/-- The types of all places of an instance. -/
theorem map_types_placesOf (hl : m.functions.length = m.codes.length)
    (h : List.Forall₂ (fun e t => s.externType? e = some t) imports found) (kind : ExternKind) :
    (s.placesOf m imports kind).toList.map
        (fun a => (s.allocate m imports).1.externType? ⟨kind, a⟩) =
      (m.typesOf found kind).map some := by
  have split_ {xs : List Nat} {size n : Nat} (g : Nat → Option ExternType) :
      (places xs size n).toList.map g = xs.map g ++ (List.range n).map fun j => g (size + j) := by
    simp [places]
  rw [Module.typesOf, List.map_append, ← map_types_imported m imports h kind]
  cases kind with
  | func =>
    let new := (m.functions.zip m.codes).map fun f =>
      Function.code (m.types[f.1]?.getD default) s.instances.size f.2
    have hn : new.length = m.functions.length := by simp [new, hl]
    have ht : new.map (fun f => ExternType.func f.type) = m.own .func := by
      rw [Module.own, ← List.map_fst_zip (Nat.le_of_eq hl), List.map_map, List.map_map]
      rfl
    rw [placesOf, split_, ← hn, ← ht]
    exact congrArg _ (map_types_new s.functions new _)
  | table =>
    let new := m.tables.map fun t =>
      { items := Array.replicate t.limits.min none, max := t.limits.max : TableInstance }
    have hn : new.length = m.tables.length := List.length_map _
    have ht : new.map (fun t => ExternType.table ⟨t.items.size, t.max⟩) = m.own .table := by
      rw [Module.own, List.map_map]
      exact List.map_congr_left fun t _ => by simp
    rw [placesOf, split_, ← hn, ← ht]
    exact congrArg _ (map_types_new s.tables new _)
  | memory =>
    let new := m.memories.map Memory.ofLimits
    have hn : new.length = m.memories.length := List.length_map _
    have ht : new.map (fun m => ExternType.memory ⟨m.pages, m.max⟩) = m.own .memory := by
      rw [Module.own, List.map_map]
      rfl
    rw [placesOf, split_, ← hn, ← ht]
    exact congrArg _ (map_types_new s.memories new _)
  | global =>
    let functions := s.placesOf m imports .func
    let globals := s.placesOf m imports .global
    let new := m.globals.map fun g =>
      { type := g.type, value := s.initial functions globals g.init : GlobalInstance }
    have hn : new.length = m.globals.length := List.length_map _
    have ht : new.map (fun g => ExternType.global g.type) = m.own .global := by
      rw [Module.own, List.map_map]
      rfl
    rw [placesOf, split_, ← hn, ← ht]
    exact congrArg _ (map_types_new s.globals new _)

theorem start_eq_ok {s : Store} {owner n : Nat} {m : Module} (h : (s.start owner m).2 = .ok n) :
    n = owner := by
  unfold start at h
  split at h
  · split at h
    · exact (Except.ok.inj h).symm
    · cases h
  · exact (Except.ok.inj h).symm

theorem instantiate_eq_ok {owner : Nat} (h : (s.instantiate m imports).2 = .ok owner) :
    owner = (s.allocate m imports).2 := by
  unfold instantiate at h
  dsimp only at h
  split at h
  · cases h
  · split at h
    · cases h
    · exact start_eq_ok h

/-- **Exports have the types that are known before.** An instance that is made exports what its
module does, each under the type that is known from the types found for the imports, or grown. -/
theorem instantiate_exports (hv : m.isValid)
    (hi : List.Forall₂ (fun e t => s.externType? e = some t) imports found)
    (hf : m.SatisfiedBy found) {owner : Nat} (h : (s.instantiate m imports).2 = .ok owner) :
    ∃ i, (s.instantiate m imports).1.instances[owner]? = some i ∧
      List.Forall₂ (fun e d => d.1 = e.name ∧
          ∃ t, (s.instantiate m imports).1.externType? d.2 = some t ∧
            (m.exportedType found e).Grows t)
        m.exports i.exports := by
  obtain ⟨i, hi', he⟩ := s.allocate_instance m imports
  have hg := s.allocate_grows_instantiate m imports
  obtain ⟨k, hk, hs⟩ := hg.instances _ i hi'
  rw [instantiate_eq_ok h]
  refine ⟨k, hk, ?_⟩
  rw [hs, he, List.forall₂_map_right_iff, List.forall₂_same]
  intro e hm
  refine ⟨rfl, ?_⟩
  have hlt := Module.index_lt hv hf hm
  have ht := map_types_placesOf (Module.length_codes hv) hi e.kind
  have hsize : e.index < (s.placesOf m imports e.kind).size := by
    rw [← Array.length_toList, ← List.length_map, ht, List.length_map]
    exact hlt
  have hat : (s.allocate m imports).1.externType?
      ⟨e.kind, (s.placesOf m imports e.kind).getD e.index 0⟩ = some (m.exportedType found e) := by
    have := congrArg (·[e.index]?) ht
    simpa [Module.exportedType, hlt, hsize] using this
  exact hg.externType? hat

end Store

end ScriptHost.Wasm

import ScriptHost.Proofs.Wasm.Instances
import ScriptHost.Wasm.Invoke

/-!
# Linking a reference

A scope lists what can be imported, with its type. What a linker has on offer is known before
anything runs: the functions of the host and the exports of the references, whose types follow
from the references and from the scope that they were linked in (`Scope.declare`). The scope of a
linker at work (`Linker.scope`) is this one, but that tables and memories may have grown
(`Scope.Grows`).

A module's imports are resolved if the scope serves it (`Linker.resolve_cases`). A reference that is
added was admitted, and the scope is then the one that declares it, or has grown
(`Linker.addReference_cases`).
-/

namespace ScriptHost.Wasm

/-! ## Scopes -/

/-- What can be imported, by module and name, with its type. The latest comes first. -/
abbrev Scope := List ((String × String) × ExternType)

namespace Scope

/-- The functions of the system interface and of the host. -/
def ofHost : Scope :=
  (HostFunction.own.reverse.map fun (name, _, t) => ((HostFunction.hostModule, name), .func t)) ++
    HostFunction.system.reverse.map fun (name, _, t) =>
      ((HostFunction.systemModule, name), .func t)

/-- There is something of a fitting type for every import of the module. -/
def Serves (scope : Scope) (m : Module) : Prop :=
  ∀ i ∈ m.imports, ∃ t asked, scope.lookup (i.module, i.name) = some t ∧
    m.importType? i = some asked ∧ t.fits asked

/-- The scope serves the reference, and none of the names that it exports is taken. -/
def Admits (scope : Scope) (r : Compiled) : Prop :=
  scope.Serves r.module ∧ ∀ e ∈ r.module.exports, scope.lookup (r.name, e.name) = none

/-- The types that are found for the imports of a module. -/
def found (scope : Scope) (m : Module) : List ExternType :=
  m.imports.map fun i => (scope.lookup (i.module, i.name)).getD default

/-- What a reference exports, with the types that it has in the scope. -/
def exportsOf (scope : Scope) (r : Compiled) : Scope :=
  r.module.exports.map fun e =>
    ((r.name, e.name), r.module.exportedType (scope.found r.module) e)

/-- The scope with the exports of a reference. -/
def declare (scope : Scope) (r : Compiled) : Scope := (scope.exportsOf r).reverse ++ scope

/-- The scope behind references that were linked in their order. -/
def after (references : List Compiled) : Scope := references.foldl declare ofHost

/-- The same names, of types that have grown. -/
def Grows (scope present : Scope) : Prop :=
  List.Forall₂ (fun entry now => now.1 = entry.1 ∧ entry.2.Grows now.2) scope present

theorem satisfiedBy_found {scope : Scope} {m : Module} (h : scope.Serves m) :
    m.SatisfiedBy (scope.found m) := by
  rw [Module.SatisfiedBy, found, List.forall₂_map_right_iff, List.forall₂_same]
  intro i hi
  obtain ⟨t, asked, ht, ha, hf⟩ := h i hi
  rw [ht]
  exact ⟨asked, ha, hf⟩

theorem isSome_declare {scope : Scope} {key : String × String} (h : (scope.lookup key).isSome)
    (r : Compiled) : ((scope.declare r).lookup key).isSome := by
  rw [declare, List.lookup_append]
  cases (scope.exportsOf r).reverse.lookup key with
  | some _ => rfl
  | none => exact h

theorem isSome_foldl_declare {scope : Scope} {key : String × String}
    (h : (scope.lookup key).isSome) (references : List Compiled) :
    ((references.foldl declare scope).lookup key).isSome := by
  induction references generalizing scope with
  | nil => exact h
  | cons r rest ih => exact ih (isSome_declare h r)

namespace Grows

variable {scope present later : Scope}

theorem refl (scope : Scope) : scope.Grows scope :=
  List.forall₂_same.2 fun entry _ => ⟨rfl, .refl entry.2⟩

theorem trans (h : scope.Grows present) (h' : present.Grows later) : scope.Grows later := by
  induction h generalizing later with
  | nil => exact h'
  | cons hd _ ih =>
    obtain ⟨hk, ht⟩ := hd
    cases h' with
    | cons hd' tl' => exact .cons ⟨hd'.1.trans hk, ht.trans hd'.2⟩ (ih tl')

/-- Names are found in both or in neither. -/
theorem lookup (h : scope.Grows present) (key : String × String) :
    Option.Rel ExternType.Grows (scope.lookup key) (present.lookup key) := by
  induction h with
  | nil => exact .none
  | @cons entry now _ _ hd _ ih =>
    obtain ⟨name, t⟩ := entry
    obtain ⟨name', u⟩ := now
    obtain ⟨hname, ht⟩ := hd
    cases hname
    rw [List.lookup_cons, List.lookup_cons]
    cases key == name with
    | true => exact .some ht
    | false => exact ih

theorem lookup_eq_none (h : scope.Grows present) {key : String × String} :
    present.lookup key = none ↔ scope.lookup key = none := by
  have := h.lookup key
  generalize scope.lookup key = t at this ⊢
  generalize present.lookup key = u at this ⊢
  cases this <;> simp

theorem lookup_eq_some (h : scope.Grows present) {key : String × String} {t : ExternType}
    (ht : scope.lookup key = some t) : ∃ u, present.lookup key = some u ∧ t.Grows u := by
  have := h.lookup key
  rw [ht] at this
  cases hp : present.lookup key with
  | none =>
    rw [hp] at this
    cases this
  | some u =>
    rw [hp] at this
    cases this with
    | some hg => exact ⟨u, rfl, hg⟩

/-- What was served before is served by what has grown. -/
theorem serves (h : scope.Grows present) {m : Module} (hs : scope.Serves m) : present.Serves m := by
  intro i hi
  obtain ⟨t, asked, ht, ha, hf⟩ := hs i hi
  obtain ⟨u, hu, hg⟩ := h.lookup_eq_some ht
  exact ⟨u, asked, hu, ha, hg.fits hf⟩

theorem admits (h : scope.Grows present) {r : Compiled} (ha : scope.Admits r) : present.Admits r :=
  ⟨h.serves ha.1, fun e he => h.lookup_eq_none.2 (ha.2 e he)⟩

theorem found (h : scope.Grows present) (m : Module) :
    List.Forall₂ ExternType.Grows (scope.found m) (present.found m) := by
  rw [Scope.found, Scope.found, List.forall₂_map_left_iff, List.forall₂_map_right_iff,
    List.forall₂_same]
  intro i _
  have := h.lookup (i.module, i.name)
  revert this
  generalize scope.lookup (i.module, i.name) = t
  generalize present.lookup (i.module, i.name) = u
  rintro (hg | _)
  · exact hg
  · exact .refl _

end Grows

end Scope

theorem ExternType.getD_grows {types present : List ExternType}
    (h : List.Forall₂ ExternType.Grows types present) (n : Nat) :
    (types.getD n default).Grows (present.getD n default) := by
  induction h generalizing n with
  | nil => exact .refl _
  | cons hg _ ih =>
    cases n with
    | zero => exact hg
    | succ n => exact ih n

/-- What a module exports grows with what its imports are satisfied by. -/
theorem Module.exportedType_grows (m : Module) {found present : List ExternType}
    (h : List.Forall₂ ExternType.Grows found present) (e : Export) :
    (m.exportedType found e).Grows (m.exportedType present e) := by
  have hfilter : List.Forall₂ ExternType.Grows (found.filter fun t => t.kind = e.kind)
      (present.filter fun t => t.kind = e.kind) := by
    induction h with
    | nil => exact .nil
    | @cons t u _ _ hg _ ih =>
      have hk := hg.kind
      by_cases ht : t.kind = e.kind
      · rw [List.filter_cons_of_pos (by simpa using ht),
          List.filter_cons_of_pos (by simpa [hk] using ht)]
        exact .cons hg ih
      · rw [List.filter_cons_of_neg (by simpa using ht),
          List.filter_cons_of_neg (by simpa [hk] using ht)]
        exact ih
  have hall : List.Forall₂ ExternType.Grows (m.typesOf found e.kind) (m.typesOf present e.kind) :=
    List.rel_append hfilter (List.forall₂_same.2 fun t _ => .refl t)
  exact ExternType.getD_grows hall e.index

theorem Scope.Grows.declare {scope present : Scope} (h : scope.Grows present) (r : Compiled) :
    (scope.declare r).Grows (present.declare r) := by
  refine List.rel_append (List.rel_reverse ?_) h
  rw [Scope.exportsOf, Scope.exportsOf, List.forall₂_map_left_iff, List.forall₂_map_right_iff,
    List.forall₂_same]
  exact fun e _ => ⟨rfl, r.module.exportedType_grows (h.found r.module) e⟩

/-! ## Checks over lists -/

section

variable {ε α β : Type}

/-- A list is gone through up to its first failure. -/
theorem mapM_cases (f : α → Except ε β) (xs : List α) :
    (∃ ys, xs.mapM f = .ok ys ∧ List.Forall₂ (fun x y => f x = .ok y) xs ys) ∨
      ∃ e, xs.mapM f = .error e ∧ ∃ x ∈ xs, f x = .error e := by
  induction xs with
  | nil => exact .inl ⟨[], rfl, .nil⟩
  | cons x rest ih =>
    rw [List.mapM_cons]
    cases hx : f x with
    | error e => exact .inr ⟨e, rfl, x, by simp, hx⟩
    | ok y =>
      obtain ⟨ys, hm, hall⟩ | ⟨e, hm, z, hz, he⟩ := ih
      · exact .inl ⟨y :: ys, by rw [hm]; rfl, .cons hx hall⟩
      · exact .inr ⟨e, by rw [hm]; rfl, z, List.mem_cons_of_mem _ hz, he⟩

theorem exists_mem_zip {R : α → β → Prop} {xs : List α} {ys : List β} (h : List.Forall₂ R xs ys)
    {x : α} (hx : x ∈ xs) : ∃ y, (x, y) ∈ xs.zip ys ∧ R x y := by
  induction h with
  | nil => cases hx
  | @cons z y zs ys hd _ ih =>
    rw [List.zip_cons_cons]
    rcases List.mem_cons.1 hx with rfl | hx
    · exact ⟨y, List.mem_cons_self, hd⟩
    · obtain ⟨w, hw, hr⟩ := ih hx
      exact ⟨w, List.mem_cons_of_mem _ hw, hr⟩

theorem forIn_cases {check : α → Except ε (ForInStep PUnit.{1})}
    (hc : ∀ x, check x = .ok (.yield ⟨⟩) ∨ ∃ e, check x = .error e) (xs : List α) :
    ((forIn xs PUnit.unit fun x _ => check x) = .ok ⟨⟩ ∧
        ∀ x ∈ xs, check x = .ok (.yield ⟨⟩)) ∨
      ∃ e, (forIn xs PUnit.unit fun x _ => check x) = .error e ∧
        ∃ x ∈ xs, check x = .error e := by
  induction xs with
  | nil => exact .inl ⟨rfl, by simp⟩
  | cons x rest ih =>
    rw [List.forIn_cons]
    obtain hx | ⟨e, hx⟩ := hc x
    · rw [hx]
      obtain ⟨hr, hall⟩ | ⟨e, hr, z, hz, he⟩ := ih
      · refine .inl ⟨hr, fun z hz => ?_⟩
        rcases List.mem_cons.1 hz with rfl | hz
        · exact hx
        · exact hall z hz
      · exact .inr ⟨e, hr, z, List.mem_cons_of_mem _ hz, he⟩
    · exact .inr ⟨e, by rw [hx]; rfl, x, by simp, hx⟩

end

/-! ## What a linker has on offer -/

/-- The fault is with an import: unknown, of another type, or defined twice. -/
def LinkFault.OfImport : LinkFault → Prop
  | .unknownImport _ _ | .incompatible _ _ | .definedTwice _ _ => True
  | .stopped _ _ => False

namespace Linker

/-- What a linker has on offer, with the present types. -/
def scope (l : Linker) : Scope :=
  l.definitions.map fun (name, e) => (name, (l.store.externType? e).getD default)

/-- Everything that has a name stands somewhere in the store. -/
def WF (l : Linker) : Prop := ∀ d ∈ l.definitions, (l.store.externType? d.2).isSome

theorem lookup_scope (l : Linker) (key : String × String) :
    l.scope.lookup key =
      (l.definitions.lookup key).map fun e => (l.store.externType? e).getD default := by
  rw [scope]
  induction l.definitions with
  | nil => rfl
  | cons d rest ih =>
    obtain ⟨name, e⟩ := d
    rw [List.map_cons, List.lookup_cons, List.lookup_cons]
    cases key == name with
    | true => rfl
    | false => exact ih

theorem WF.externType? {l : Linker} (h : l.WF) {key : String × String} {e : Extern}
    (hl : l.definitions.lookup key = some e) : l.store.externType? e = l.scope.lookup key := by
  obtain ⟨before, rest, hd, -⟩ := List.lookup_eq_some_iff.1 hl
  obtain ⟨t, ht⟩ := Option.isSome_iff_exists.1 (h (key, e) (by simp [hd]))
  have ht : l.store.externType? e = some t := ht
  rw [lookup_scope, hl, ht, Option.map_some, ht, Option.getD_some]

/-- In a store that has grown, everything that had a name still stands where it did. -/
theorem WF.grows {l : Linker} (h : l.WF) (l' : Linker) (hg : l.store.Grows l'.store)
    (hd : l'.definitions = l.definitions) : l'.WF ∧ l.scope.Grows l'.scope := by
  constructor
  · intro d hm
    obtain ⟨t, ht⟩ := Option.isSome_iff_exists.1 (h d (hd ▸ hm))
    obtain ⟨u, hu, -⟩ := hg.externType? ht
    rw [hu]
    rfl
  · rw [scope, scope, Scope.Grows, hd, List.forall₂_map_left_iff, List.forall₂_map_right_iff,
      List.forall₂_same]
    intro d hm
    obtain ⟨t, ht⟩ := Option.isSome_iff_exists.1 (h d hm)
    obtain ⟨u, hu, htu⟩ := hg.externType? ht
    simp only [ht, hu, Option.getD_some]
    exact ⟨trivial, htu⟩

theorem addFunction_grows {l : Linker} (h : l.WF) {known : Scope} (hk : known.Grows l.scope)
    (module name : String) (f : HostFunction) (t : FuncType) :
    (l.addFunction module name f t).WF ∧
      Scope.Grows (((module, name), .func t) :: known) (l.addFunction module name f t).scope := by
  let s : Store := { l.store with functions := l.store.functions.push (.host t f) }
  have hs : l.store.Grows s :=
    { Store.Grows.refl l.store with functions := .push (fun _ => rfl) _ _ }
  have hf : s.externType? ⟨.func, l.store.functions.size⟩ = some (.func t) := by
    simp [s, Store.externType?, Function.type]
  obtain ⟨hw, hg⟩ := h.grows { l with store := s } hs rfl
  constructor
  · intro d hm
    rcases List.mem_cons.1 hm with rfl | hm
    · exact Option.isSome_iff_exists.2 ⟨_, hf⟩
    · exact hw d hm
  · refine .cons ⟨rfl, ?_⟩ (hk.trans hg)
    show ExternType.Grows (.func t) ((s.externType? ⟨.func, l.store.functions.size⟩).getD default)
    rw [hf]
    exact .refl _

theorem addFunctions_grows {l : Linker} (h : l.WF) {known : Scope} (hk : known.Grows l.scope)
    (module : String) (fs : List (String × HostFunction × FuncType)) :
    (fs.foldl (fun l (name, f, t) => l.addFunction module name f t) l).WF ∧
      Scope.Grows ((fs.reverse.map fun (name, _, t) => ((module, name), .func t)) ++ known)
        (fs.foldl (fun l (name, f, t) => l.addFunction module name f t) l).scope := by
  induction fs generalizing l known with
  | nil => exact ⟨h, hk⟩
  | cons g rest ih =>
    obtain ⟨name, f, t⟩ := g
    obtain ⟨h, hk⟩ := addFunction_grows h hk module name f t
    simpa using ih h hk

/-- A linker begins with the functions of the host. -/
theorem ofHost_grows (host : Host) :
    (ofHost host).WF ∧ Scope.ofHost.Grows (ofHost host).scope := by
  rw [ofHost, Scope.ofHost]
  -- which functions these are does not matter, only that both sides list the same
  generalize HostFunction.own = own
  generalize HostFunction.system = system
  have hnone : WF { store := { host } } := by simp [WF]
  obtain ⟨hw, hk⟩ := addFunctions_grows hnone .nil HostFunction.systemModule system
  rw [List.append_nil] at hk
  exact addFunctions_grows hw hk HostFunction.hostModule own

/-! ## Resolving imports -/

/-- Looks up what an import stands for. -/
def find (l : Linker) (i : Import) : Except LinkFault Extern :=
  match l.definitions.lookup (i.module, i.name) with
  | some e => .ok e
  | none => .error (.unknownImport i.module i.name)

/-- Checks that what an import stands for fits. -/
def check (l : Linker) (m : Module) : Import × Extern → Except LinkFault (ForInStep PUnit.{1})
  | (i, e) =>
    match l.store.externType? e, m.importType? i with
    | some t, some asked =>
      if t.fits asked then .ok (.yield ⟨⟩) else .error (.incompatible i.module i.name)
    | _, _ => .error (.incompatible i.module i.name)

def checkAll (l : Linker) (m : Module) (found : List Extern) : Except LinkFault PUnit.{1} :=
  forIn (m.imports.zip found) PUnit.unit fun x _ => l.check m x

theorem resolve_eq (l : Linker) (m : Module) :
    l.resolve m =
      match m.imports.mapM l.find with
      | .error fault => .error fault
      | .ok found =>
        match l.checkAll m found with
        | .error fault => .error fault
        | .ok _ => .ok found := by
  have body : l.resolve m = (do
      let found ← m.imports.mapM l.find
      let _ ← l.checkAll m found
      return found) := by
    refine congrArg _ (funext fun found => congrArg (bind · fun _ => pure found) ?_)
    refine congrArg _ (funext fun x => funext fun _ => ?_)
    obtain ⟨i, e⟩ := x
    dsimp only [check]
    cases l.store.externType? e with
    | none => rfl
    | some t =>
      cases m.importType? i with
      | none => rfl
      | some asked =>
        dsimp only
        cases t.fits asked <;> rfl
  rw [body]
  cases m.imports.mapM l.find with
  | error fault => rfl
  | ok found =>
    dsimp only [bind, Except.bind]
    cases l.checkAll m found <;> rfl

theorem find_eq_ok {l : Linker} {i : Import} {e : Extern} :
    l.find i = .ok e ↔ l.definitions.lookup (i.module, i.name) = some e := by
  rw [find]
  split
  · rename_i h
    rw [h, Except.ok.injEq, Option.some.injEq]
  · rename_i h
    simp [h]

theorem check_eq_ok {l : Linker} {m : Module} {i : Import} {e : Extern} :
    l.check m (i, e) = .ok (.yield ⟨⟩) ↔ ∃ t asked, l.store.externType? e = some t ∧
      m.importType? i = some asked ∧ t.fits asked := by
  rw [check]
  split
  · rename_i t asked ht ha
    rw [ht, ha]
    split
    · rename_i hf
      simp [hf]
    · rename_i hf
      simp [hf]
  · rename_i hno
    refine ⟨nofun, fun ⟨t, asked, ht, ha, _⟩ => ?_⟩
    exact (hno t asked ht ha).elim

theorem check_cases (l : Linker) (m : Module) (x : Import × Extern) :
    l.check m x = .ok (.yield ⟨⟩) ∨
      l.check m x = .error (.incompatible x.1.module x.1.name) := by
  obtain ⟨i, e⟩ := x
  unfold check
  dsimp only
  split
  · split
    · exact .inl rfl
    · exact .inr rfl
  · exact .inr rfl

/-- A fault is found with an import of the module: nothing is known by its name, or it does not
fit. Otherwise everything is there and fits. -/
theorem resolve_cases {l : Linker} (h : l.WF) (m : Module) :
    (∃ imports, l.resolve m = .ok imports ∧
        List.Forall₂ (fun e t => l.store.externType? e = some t) imports (l.scope.found m) ∧
        l.scope.Serves m) ∨
      ∃ fault, l.resolve m = .error fault ∧ fault.OfImport ∧ ¬ l.scope.Serves m ∧
        ∀ module name, fault = .unknownImport module name →
          ∃ i ∈ m.imports, i.module = module ∧ i.name = name ∧
            l.scope.lookup (module, name) = none := by
  have known {i : Import} {e : Extern} (he : l.definitions.lookup (i.module, i.name) = some e) :
      ∃ t, l.store.externType? e = some t ∧ l.scope.lookup (i.module, i.name) = some t := by
    have ht := h.externType? he
    obtain ⟨before, rest, hd, -⟩ := List.lookup_eq_some_iff.1 he
    obtain ⟨t, hs⟩ := Option.isSome_iff_exists.1 (h ((i.module, i.name), e) (by simp [hd]))
    exact ⟨t, hs, ht.symm.trans hs⟩
  have none_of {i : Import} (he : l.definitions.lookup (i.module, i.name) = none) :
      l.scope.lookup (i.module, i.name) = none := by
    rw [lookup_scope, he, Option.map_none]
  rw [resolve_eq]
  obtain ⟨imports, hm, hall⟩ | ⟨fault, hm, i, hi, he⟩ := mapM_cases l.find m.imports
  · have hfound : List.Forall₂ (fun e t => l.store.externType? e = some t) imports
        (l.scope.found m) := by
      rw [Scope.found, List.forall₂_map_right_iff]
      refine hall.flip.imp fun e i he => ?_
      obtain ⟨t, ht, hs⟩ := known (find_eq_ok.1 he)
      rw [hs]
      exact ht
    simp only [hm]
    obtain ⟨hc, hfits⟩ | ⟨fault, hc, ⟨i, e⟩, hz, he⟩ := forIn_cases
      (fun x => (l.check_cases m x).imp id fun h => ⟨_, h⟩) (m.imports.zip imports)
    · refine .inl ⟨imports, by rw [checkAll, hc], hfound, fun i hi => ?_⟩
      obtain ⟨e, hz, he⟩ := exists_mem_zip hall hi
      obtain ⟨t, asked, ht, ha, hf⟩ := check_eq_ok.1 (hfits _ hz)
      obtain ⟨u, hu, hs⟩ := known (find_eq_ok.1 he)
      cases ht.symm.trans hu
      exact ⟨t, asked, hs, ha, hf⟩
    · have hfault : fault = .incompatible i.module i.name := by
        obtain hok | herror := l.check_cases m (i, e)
        · cases hok.symm.trans he
        · exact Except.error.inj (he.symm.trans herror)
      subst hfault
      refine .inr ⟨.incompatible i.module i.name, by rw [checkAll, hc], trivial,
        fun hserves => ?_, by rintro _ _ ⟨⟩⟩
      obtain ⟨t, asked, hs, ha, hf⟩ := hserves i (List.of_mem_zip hz).1
      have hi := (List.forall₂_iff_zip.1 hall).2 hz
      obtain ⟨u, hu, hs'⟩ := known (find_eq_ok.1 hi)
      cases hs.symm.trans hs'
      cases (check_eq_ok.2 ⟨t, asked, hu, ha, hf⟩).symm.trans he
  · have hnone : l.definitions.lookup (i.module, i.name) = none := by
      cases hl : l.definitions.lookup (i.module, i.name) with
      | none => rfl
      | some e => cases (find_eq_ok.2 hl).symm.trans he
    have hfault : fault = .unknownImport i.module i.name := by
      rw [find, hnone] at he
      exact (Except.error.inj he).symm
    subst hfault
    refine .inr ⟨.unknownImport i.module i.name, by rw [hm], trivial, fun hserves => ?_, ?_⟩
    · obtain ⟨t, _, ht, -⟩ := hserves i hi
      cases (none_of hnone).symm.trans ht
    · rintro module name ⟨⟩
      exact ⟨i, hi, rfl, rfl, none_of hnone⟩

/-! ## Adding references -/

theorem scope_lookup_eq_none {l : Linker} {key : String × String} :
    l.scope.lookup key = none ↔ l.definitions.lookup key = none := by
  rw [lookup_scope, Option.map_eq_none_iff]

theorem scope_define (l : Linker) (module : String) (exports : List (String × Extern)) :
    scope { l with
      definitions := (exports.map fun d => ((module, d.1), d.2)).reverse ++ l.definitions } =
    (exports.map fun d => ((module, d.1), (l.store.externType? d.2).getD default)).reverse ++
      l.scope := by
  simp [scope, Function.comp_def]

theorem defineExports_cases (l : Linker) (module : String) (exports : List (String × Extern))
    (hn : (exports.map (·.1)).Nodup) :
    (l.defineExports module exports =
        .ok { l with
          definitions := (exports.map fun d => ((module, d.1), d.2)).reverse ++ l.definitions } ∧
        ∀ d ∈ exports, l.definitions.lookup (module, d.1) = none) ∨
      ∃ name, l.defineExports module exports = .error (.definedTwice module name) ∧
        ∃ d ∈ exports, l.definitions.lookup (module, d.1) ≠ none := by
  induction exports generalizing l with
  | nil => exact .inl ⟨rfl, by simp⟩
  | cons d rest ih =>
    obtain ⟨name, e⟩ := d
    rw [List.map_cons, List.nodup_cons] at hn
    cases hl : l.definitions.lookup (module, name) with
    | some _ =>
      refine .inr ⟨name, ?_, (name, e), by simp, by simp [hl]⟩
      simp [defineExports, define, hl, bind, Except.bind]
    | none =>
      have step : l.defineExports module ((name, e) :: rest) =
          defineExports { l with definitions := ((module, name), e) :: l.definitions }
            module rest := by
        simp [defineExports, define, hl, bind, Except.bind]
      -- the names behind are others, so what was defined just now does not matter to them
      have other {d : String × Extern} (hd : d ∈ rest) :
          (((module, name), e) :: l.definitions).lookup (module, d.1) =
            l.definitions.lookup (module, d.1) := by
        have hne : d.1 ≠ name := fun h => hn.1 (h ▸ List.mem_map.2 ⟨d, hd, rfl⟩)
        rw [List.lookup_cons, beq_false_of_ne (by simpa using hne)]
      rw [step]
      obtain ⟨hr, hall⟩ | ⟨taken, hr, d, hd, ht⟩ :=
        ih { l with definitions := ((module, name), e) :: l.definitions } hn.2
      · refine .inl ⟨by rw [hr]; simp, fun d hd => ?_⟩
        rcases List.mem_cons.1 hd with rfl | hd
        · exact hl
        · rw [← other hd]
          exact hall d hd
      · refine .inr ⟨taken, hr, d, List.mem_cons_of_mem _ hd, ?_⟩
        rw [← other hd]
        exact ht

theorem not_ofImport_of_instantiate {s : Store} {m : Module} {imports : List Extern}
    {fault : LinkFault} (h : (s.instantiate m imports).2 = .error fault) : ¬ fault.OfImport := by
  unfold Store.instantiate at h
  dsimp only at h
  split at h
  · cases h
    exact id
  · split at h
    · cases h
      exact id
    · unfold Store.start at h
      split at h
      · split at h
        · cases h
        · cases h
          exact id
      · cases h

/-- A reference that is admitted can only stop. One that is added was admitted, and what it exports
is on offer then. -/
theorem addReference_cases {l : Linker} (h : l.WF) {r : Compiled} (hv : r.module.isValid) :
    (∃ l', l.addReference r = .ok l' ∧ l.scope.Admits r ∧ l'.WF ∧
        (l.scope.declare r).Grows l'.scope) ∨
      ∃ s fault, l.addReference r = .error (s, fault) ∧
        (fault.OfImport → ¬ l.scope.Admits r) := by
  unfold addReference Linker.instantiate
  obtain ⟨imports, hr, hfound, hserves⟩ | ⟨fault, hr, -, hno, -⟩ := resolve_cases h r.module
  · simp only [hr]
    have hgrows := l.store.instantiate_grows r.module imports
    cases hs : l.store.instantiate r.module imports with
    | mk s result =>
    rw [hs] at hgrows
    cases result with
    | error fault =>
      have hstop := not_ofImport_of_instantiate (congrArg Prod.snd hs)
      exact .inr ⟨s, fault, rfl, fun hf => absurd hf hstop⟩
    | ok owner =>
      obtain ⟨i, hi, hall⟩ := Store.instantiate_exports hv hfound
        (Scope.satisfiedBy_found hserves) (congrArg Prod.snd hs)
      rw [hs] at hi hall
      dsimp only at hi hall hgrows
      obtain ⟨hw, hg⟩ := h.grows { l with store := s } hgrows rfl
      have hnames : i.exports.map (·.1) = r.module.exports.map Export.name := by
        rw [← List.forall₂_eq_eq_eq, List.forall₂_map_left_iff, List.forall₂_map_right_iff]
        exact hall.flip.imp fun d e hd => hd.1
      have hnodup : (i.exports.map (·.1)).Nodup := hnames ▸ Module.nodup_exports hv
      simp only [hi, Option.map_some, Option.getD_some]
      obtain ⟨hd, hfree⟩ | ⟨name, hd, d, hm, htaken⟩ :=
        defineExports_cases { l with store := s } r.name i.exports hnodup
      · rw [hd]
        refine .inl ⟨_, rfl, ⟨hserves, fun e he => ?_⟩, fun d hm => ?_, ?_⟩
        · have : e.name ∈ i.exports.map (·.1) := hnames ▸ List.mem_map_of_mem he
          obtain ⟨d, hd, hn⟩ := List.mem_map.1 this
          rw [scope_lookup_eq_none, ← hn]
          exact hfree d hd
        · rcases List.mem_append.1 hm with hm | hm
          · obtain ⟨d, hd, rfl⟩ := List.mem_map.1 (List.mem_reverse.1 hm)
            obtain ⟨e, -, -, t, ht, -⟩ := exists_mem_zip hall.flip hd
            exact Option.isSome_iff_exists.2 ⟨t, ht⟩
          · exact hw d hm
        · rw [scope_define, Scope.declare]
          refine List.rel_append (List.rel_reverse ?_) hg
          rw [Scope.exportsOf, List.forall₂_map_left_iff, List.forall₂_map_right_iff]
          refine hall.imp fun e d hd => ?_
          obtain ⟨hn, t, ht, hgt⟩ := hd
          simp only [ht, hn, Option.getD_some]
          exact ⟨trivial, hgt⟩
      · rw [hd]
        refine .inr ⟨s, _, rfl, fun _ ha => htaken ?_⟩
        have : d.1 ∈ r.module.exports.map Export.name := hnames ▸ List.mem_map_of_mem hm
        obtain ⟨e, he, hn⟩ := List.mem_map.1 this
        rw [← hn, ← scope_lookup_eq_none (l := l)]
        exact ha.2 e he
  · simp only [hr]
    exact .inr ⟨l.store, fault, rfl, fun _ ha => hno ha.1⟩

end Linker

end ScriptHost.Wasm

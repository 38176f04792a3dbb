import ScriptHost.Proofs.Wasm.TwinInstances

/-!
# Linkers that are alike

Two linkers are twins if their stores are and if every name stands for places that are paired
(`Linker.Twins`). They resolve the same imports, to what is paired, and adding a reference to both
succeeds or fails in both and leaves twins (`Compiled.linkReferences_twins`). A module that is run
in one of them does what it does in the other, if their hosts have the same state
(`Compiled.sameRuns_of_twins`).
-/

namespace ScriptHost.Wasm

section

variable {ε α β γ : Type} {R : α → β → Prop}

theorem matches_mapM {f : γ → Except ε α} {g : γ → Except ε β} {xs : List γ}
    (h : ∀ x ∈ xs, Matches R (f x) (g x)) : Matches (List.Forall₂ R) (xs.mapM f) (xs.mapM g) := by
  induction xs with
  | nil => exact .ok .nil
  | cons x rest ih =>
    have hx := h x List.mem_cons_self
    have hrest := ih fun y hy => h y (List.mem_cons_of_mem _ hy)
    rw [List.mapM_cons, List.mapM_cons]
    generalize f x = a at hx ⊢
    generalize g x = b at hx ⊢
    cases hx with
    | error e => exact .error e
    | ok hab =>
      generalize rest.mapM f = as at hrest ⊢
      generalize rest.mapM g = bs at hrest ⊢
      cases hrest with
      | error e => exact .error e
      | ok habs => exact .ok (.cons hab habs)

end

variable {same : Prop} {P : Pairing} {base s s' : Store} {l l' : Linker}

/-! ## Resolving imports -/

/-- What is paired is of the same type, and of the same size. -/
theorem Store.Twins.externType?_eq (h : s.Twins same P s' base) {d e : Extern}
    (he : d.Alike P e) : s'.externType? e = s.externType? d := by
  obtain ⟨kind, a⟩ := d
  obtain ⟨kind', b⟩ := e
  obtain ⟨rfl, hp⟩ := he
  unfold Store.externType?
  cases kind' with
  | func =>
    obtain ⟨x, y, hx, hy, hxy⟩ := h.functions.related hp
    simp only [hx, hy, Option.map_some, hxy.type_eq]
  | table =>
    obtain ⟨t, u, ht, hu, htu⟩ := h.tables.related hp
    simp only [ht, hu, Option.map_some, htu.items.size_eq, htu.max]
  | memory =>
    obtain ⟨m, _, hm, hm', rfl⟩ := h.memories.related hp
    simp only [hm, hm']
  | global =>
    obtain ⟨g, k, hg, hk, hgk⟩ := h.globals.related hp
    simp only [hg, hk, Option.map_some, hgk.type]

namespace Linker

/-- Imports that stand for paired places are resolved alike. -/
theorem resolve_twins (hs : l.store.Twins same P l'.store base) {m : Module}
    (hd : ∀ i ∈ m.imports, Option.Rel (Extern.Alike P) (l.definitions.lookup (i.module, i.name))
      (l'.definitions.lookup (i.module, i.name))) :
    Matches (List.Forall₂ (Extern.Alike P)) (l.resolve m) (l'.resolve m) := by
  have hfind : ∀ i ∈ m.imports, Matches (Extern.Alike P) (l.find i) (l'.find i) := by
    intro i hi
    have hlookup := hd i hi
    unfold find
    generalize l.definitions.lookup (i.module, i.name) = d at hlookup ⊢
    generalize l'.definitions.lookup (i.module, i.name) = e at hlookup ⊢
    cases hlookup with
    | none => exact .error _
    | some hde => exact .ok hde
  -- what is found has the same types, so the same imports fit
  have hcheck {found found' : List Extern} (hf : List.Forall₂ (Extern.Alike P) found found') :
      l'.checkAll m found' = l.checkAll m found := by
    unfold checkAll
    generalize m.imports = imports
    induction hf generalizing imports with
    | nil => cases imports <;> rfl
    | @cons d e _ _ hde _ ih =>
      cases imports with
      | nil => rfl
      | cons i rest =>
        have hone : l'.check m (i, e) = l.check m (i, d) := by
          rw [check, check, hs.externType?_eq hde]
        rw [List.zip_cons_cons, List.zip_cons_cons, List.forIn_cons, List.forIn_cons, hone]
        refine congrArg _ (funext fun step => ?_)
        cases step with
        | done _ => rfl
        | yield _ => exact ih rest
  rw [resolve_eq, resolve_eq]
  have hall := matches_mapM hfind
  generalize m.imports.mapM l.find = x at hall ⊢
  generalize m.imports.mapM l'.find = y at hall ⊢
  cases hall with
  | error fault => exact .error fault
  | @ok found found' hf =>
    dsimp only
    rw [hcheck hf]
    cases l.checkAll m found with
    | error fault => exact .error fault
    | ok _ => exact .ok hf

/-! ## Adding references -/

/-- Every name stands for places that are paired, or for nothing in both. -/
structure Twins (same : Prop) (P : Pairing) (base : Store) (l l' : Linker) : Prop where
  store : l.store.Twins same P l'.store base
  zero : P.places .func 0 0
  definitions (key : String × String) : Option.Rel (Extern.Alike P) (l.definitions.lookup key)
    (l'.definitions.lookup key)

theorem Twins.mono (h : l.Twins same P base l') {Q : Pairing} (hle : P.Le Q) {s s' : Store}
    (hs : s.Twins same Q s' base) :
    Linker.Twins same Q base { l with store := s } { l' with store := s' } where
  store := hs
  zero := hle.places h.zero
  definitions key := by
    have hlookup := h.definitions key
    dsimp only
    generalize l.definitions.lookup key = d at hlookup ⊢
    generalize l'.definitions.lookup key = e at hlookup ⊢
    cases hlookup with
    | none => exact .none
    | some hde => exact .some (hde.mono hle)

/-- The linker, at a host of this state. -/
def withHost (l : Linker) (host : Host) : Linker := { l with store := { l.store with host } }

/-- Twins stay twins when both hosts get the same state. -/
theorem Twins.withHost (h : l.Twins same P base l') (host : Host) :
    (l.withHost host).Twins True P { base with host } (l'.withHost host) where
  store := { h.store with host := ⟨⟨rfl, rfl⟩, ⟨rfl, rfl⟩, fun _ => rfl⟩ }
  zero := h.zero
  definitions := h.definitions

theorem define_twins (h : l.Twins same P base l') (module name : String) {d e : Extern}
    (hde : d.Alike P e) :
    Matches (Linker.Twins same P base) (l.define module name d) (l'.define module name e) := by
  have hlookup := h.definitions (module, name)
  unfold define
  generalize hx : l.definitions.lookup (module, name) = x at hlookup ⊢
  generalize hy : l'.definitions.lookup (module, name) = y at hlookup ⊢
  cases hlookup with
  | some _ => exact .error _
  | none =>
    refine .ok { h with definitions := fun key => ?_ }
    rw [List.lookup_cons, List.lookup_cons]
    cases key == (module, name) with
    | true => exact .some hde
    | false => exact h.definitions key

theorem defineExports_twins {exports exports' : List (String × Extern)}
    (he : List.Forall₂ (fun d e => e.1 = d.1 ∧ d.2.Alike P e.2) exports exports') (module : String)
    (h : l.Twins same P base l') :
    Matches (Linker.Twins same P base) (l.defineExports module exports)
      (l'.defineExports module exports') := by
  induction he generalizing l l' with
  | nil => exact .ok h
  | @cons d e _ _ hd _ ih =>
    obtain ⟨name, x⟩ := d
    obtain ⟨name', y⟩ := e
    obtain ⟨hname, hxy⟩ := hd
    dsimp only at hname hxy
    subst hname
    have hdefined := define_twins h module name' hxy
    unfold defineExports
    dsimp only [bind, Except.bind]
    generalize l.define module name' x = k at hdefined ⊢
    generalize l'.define module name' y = k' at hdefined ⊢
    cases hdefined with
    | error fault => exact .error fault
    | ok hk => exact ih hk

/-- Instances of a valid module are made alike, if its imports stand for what is paired. -/
theorem instantiate_twins (hs : l.store.Twins same P l'.store base) (hzero : P.places .func 0 0)
    {m : Module} (hv : m.isValid)
    (hd : ∀ i ∈ m.imports, Option.Rel (Extern.Alike P) (l.definitions.lookup (i.module, i.name))
      (l'.definitions.lookup (i.module, i.name))) :
    ∃ Q, P.Extends Q l.store l'.store ∧
      (l.instantiate m).1.Twins same Q (l'.instantiate m).1 base ∧
      Matches Q.owners (l.instantiate m).2 (l'.instantiate m).2 := by
  have hresolve := resolve_twins hs hd
  unfold instantiate
  generalize hx : l.resolve m = x at hresolve ⊢
  generalize l'.resolve m = y at hresolve ⊢
  cases hresolve with
  | error fault => exact ⟨P, .refl P _ _, hs, .error fault⟩
  | ok hi =>
    obtain ⟨found, hfound, hf⟩ := resolve_eq_ok hx
    exact ⟨_, P.extends_extend _ _ m, Store.instantiate_twins hs hzero hv hfound hf hi⟩

/-- **A reference is added to both linkers or to none.** -/
theorem addReference_twins (h : l.Twins same P base l') {r : Compiled} (hv : r.module.isValid) :
    (∃ Q k k', l.addReference r = .ok k ∧ l'.addReference r = .ok k' ∧
        P.Extends Q l.store l'.store ∧ k.Twins same Q base k') ∨
      ∃ e e', l.addReference r = .error e ∧ l'.addReference r = .error e' := by
  obtain ⟨Q, hext, hs, hmade⟩ := instantiate_twins h.store h.zero hv fun i _ =>
    h.definitions (i.module, i.name)
  unfold addReference
  generalize l.instantiate r.module = x at hs hmade ⊢
  generalize l'.instantiate r.module = y at hs hmade ⊢
  obtain ⟨s, made⟩ := x
  obtain ⟨s', made'⟩ := y
  dsimp only at hs hmade ⊢
  cases hmade with
  | error fault => exact .inr ⟨_, _, rfl, rfl⟩
  | ok ho =>
    obtain ⟨i, j, hi, hj, hij⟩ := hs.instances.related ho
    have hdefined := defineExports_twins hij.exports r.name (h.mono hext.toLe hs)
    simp only [hi, hj, Option.map_some, Option.getD_some]
    generalize defineExports _ r.name i.exports = k at hdefined ⊢
    generalize defineExports _ r.name j.exports = k' at hdefined ⊢
    cases hdefined with
    | error fault => exact .inr ⟨_, _, rfl, rfl⟩
    | ok hk => exact .inl ⟨Q, _, _, rfl, rfl, hext, hk⟩

end Linker

/-- Exported functions are found alike, with one type. -/
theorem Store.Twins.exportedFunction? (hs : s.Twins same P s' base) {o o' : Nat}
    (ho : P.owners o o') (name : String) :
    Option.Rel (fun x y => P.places .func x.1 y.1 ∧ y.2 = x.2) (s.exportedFunction? o name)
      (s'.exportedFunction? o' name) := by
  obtain ⟨i, j, hi, hj, hij⟩ := hs.instances.related ho
  have hlookup := hij.lookup name
  simp only [Store.exportedFunction?, hi, hj, bind, Option.bind_some]
  generalize i.exports.lookup name = d at hlookup ⊢
  generalize j.exports.lookup name = e at hlookup ⊢
  cases hlookup with
  | none => exact .none
  | @some d e hde =>
    obtain ⟨kind, a⟩ := d
    obtain ⟨kind', b⟩ := e
    obtain ⟨rfl, hp⟩ := hde
    dsimp only [Option.bind_some]
    split
    · rename_i hk
      subst hk
      obtain ⟨f, g, hf, hg, hfg⟩ := hs.functions.related hp
      rw [hf, hg]
      exact .some ⟨hp, hfg.type_eq⟩
    · exact .none

namespace Compiled

/-- Makes the instance that a run begins with, once the references are linked. -/
def instantiateIn (c : Compiled) (l : Linker) : Store × Except InvokeError Nat :=
  match l.instantiate c.module with
  | (s, .ok owner) => (s, .ok owner)
  | (s, .error fault) => (s, .error (.instantiate c.name fault))

/-- Makes an instance of a type, if it has a constructor. -/
def construct (command : TypeShape) (s : Store) (owner : Nat) :
    Store × Except InvokeError (List Value) :=
  match command.constructor? with
  | some new => s.callExport owner new.exportName ⟨[], [.i32]⟩ []
  | none => (s, .ok [.i32 0])

/-- Runs a command of the instance that was made. -/
def finishCommand (command : TypeShape) (entry : Method) :
    Store × Except InvokeError Nat → Host × Except InvokeError CommandResult
  | (s, .error e) => (s.host, .error e)
  | (s, .ok owner) =>
    let (s, this) := construct command s owner
    match this with
    | .error e => (s.host, .error e)
    | .ok this =>
      match s.callExport owner entry.exportName ⟨[.i32], [.i32]⟩ [.i32 (singleI32 this)] with
      | (s, .error e) => (s.host, .error e)
      | (s, .ok results) =>
        (s.host, .ok ⟨toSigned 32 (singleI32 results).toNat, s.host.message⟩)

/-- Runs an event handler of the instance that was made. -/
def finishEventHandler (name : String) (method : Method) :
    Store × Except InvokeError Nat → Host × Except InvokeError Unit
  | (s, .error e) => (s.host, .error e)
  | (s, .ok owner) =>
    match s.exportedFunction? owner method.exportName with
    | none => (s.host, .error (.noExport name method.exportName))
    | some (address, type) =>
      match (type.params.zip [1, 2]).mapM fun (t, handle) => handleValue t handle with
      | .error e => (s.host, .error e)
      | .ok args =>
        match s.call address args with
        | .values s _ => (s.host, .ok ())
        | .stopped s reason inCode => (s.host, .error (.failed method.exportName reason inCode))

variable {c : Compiled} {references : List Compiled}

theorem invokeCommand_eq_finish (command : TypeShape) (host : Host) :
    c.invokeCommand command host references =
      match command.entry? with
      | none => (host, .error (.noEntry command.name))
      | some entry => finishCommand command entry (c.instantiate host references) := by
  unfold invokeCommand
  cases command.entry? with
  | none => rfl
  | some entry =>
    rcases c.instantiate host references with ⟨s, e | owner⟩ <;> rfl

theorem invokeEventHandler_eq_finish (method : Method) (host : Host) :
    c.invokeEventHandler method host references =
      finishEventHandler c.name method (c.instantiate host references) := by
  unfold invokeEventHandler
  rcases c.instantiate host references with ⟨s, e | owner⟩ <;> rfl

/-- Whatever is run comes to the same in both linkers, if their hosts have the same state. -/
structure SameRuns (c : Compiled) (l l' : Linker) : Prop where
  command (command : TypeShape) (entry : Method) (host : Host) :
    finishCommand command entry (c.instantiateIn (l.withHost host)) =
      finishCommand command entry (c.instantiateIn (l'.withHost host))
  eventHandler (method : Method) (host : Host) :
    finishEventHandler c.name method (c.instantiateIn (l.withHost host)) =
      finishEventHandler c.name method (c.instantiateIn (l'.withHost host))

theorem SameRuns.refl (c : Compiled) (l : Linker) : c.SameRuns l l where
  command _ _ _ := rfl
  eventHandler _ _ := rfl

theorem SameRuns.symm {l k : Linker} (h : c.SameRuns l k) : c.SameRuns k l where
  command type entry host := (h.command type entry host).symm
  eventHandler method host := (h.eventHandler method host).symm

theorem SameRuns.trans {l₁ l₂ l₃ : Linker} (h : c.SameRuns l₁ l₂) (h' : c.SameRuns l₂ l₃) :
    c.SameRuns l₁ l₃ where
  command type entry host := (h.command type entry host).trans (h'.command type entry host)
  eventHandler method host := (h.eventHandler method host).trans (h'.eventHandler method host)

end Compiled

end ScriptHost.Wasm

import ScriptHost.Proofs.Wasm.Linking

/-!
# Which modules can be linked

Whether an import will be found when a module is instantiated, and whether it will fit, can be
told from the module and its references alone (`Compiled.Linkable`): each reference that is linked
has to be admitted by the scope it is linked in, and the module has to be served by the last one.
The check that accepts a module looks at less: it knows no types, takes every name of the system
interface, and looks neither at the imports of references nor at names that are exported twice.
`Compiled.failsByImport_iff` says exactly when instantiation fails by an import.
-/

namespace ScriptHost.Wasm

namespace Compiled

/-- The references that a module is linked with. -/
def linked (c : Compiled) (references : List Compiled) : List Compiled :=
  references.filter fun r => c.importsFrom r.name

/-- What is on offer behind references that were linked for a run. -/
def Offered (c : Compiled) (host : Host) (before : List Compiled) (scope : Scope) : Prop :=
  ∃ l, c.linkReferences (.ofHost host) before = .ok l ∧ l.scope = scope

/-- With what is on offer behind the references before, every reference that is linked is admitted,
and in the end the module is served. -/
def Links (c : Compiled) (references : List Compiled) (offer : List Compiled → Scope → Prop) :
    Prop :=
  (∀ before r rest scope, c.linked references = before ++ r :: rest → offer before scope →
      scope.Admits r) ∧
    ∀ scope, offer (c.linked references) scope → scope.Serves c.module

/-- The module can be linked, as far as types tell before anything runs. -/
def Linkable (c : Compiled) (references : List Compiled) : Prop :=
  c.Links references fun before scope => scope = Scope.after before

section

variable {c : Compiled}

theorem mem_linked {references : List Compiled} {r : Compiled} :
    r ∈ c.linked references ↔ r ∈ references ∧ c.importsFrom r.name := by
  rw [linked, List.mem_filter]

theorem linked_cons_of_importsFrom {r : Compiled} (hr : c.importsFrom r.name)
    (rest : List Compiled) : c.linked (r :: rest) = r :: c.linked rest :=
  List.filter_cons_of_pos hr

theorem linked_cons_of_not_importsFrom {r : Compiled} (hr : ¬ c.importsFrom r.name)
    (rest : List Compiled) : c.linked (r :: rest) = c.linked rest :=
  List.filter_cons_of_neg hr

theorem linkReferences_cons {r : Compiled} (hr : c.importsFrom r.name) (l : Linker)
    (rest : List Compiled) :
    c.linkReferences l (r :: rest) =
      match l.addReference r with
      | .ok l => c.linkReferences l rest
      | .error (s, fault) => .error (s, .link r.name fault) := by
  refine Eq.trans (if_pos hr) ?_
  cases l.addReference r <;> rfl

theorem linkReferences_linked (l : Linker) (references : List Compiled) :
    c.linkReferences l references = c.linkReferences l (c.linked references) := by
  induction references generalizing l with
  | nil => rfl
  | cons r rest ih =>
    by_cases hr : c.importsFrom r.name
    · rw [linked_cons_of_importsFrom hr, linkReferences_cons hr, linkReferences_cons hr]
      cases l.addReference r with
      | ok l => exact ih l
      | error e => rfl
    · rw [linked_cons_of_not_importsFrom hr, linkReferences, if_neg hr]
      exact ih l

theorem linkReferences_append (l : Linker) (before after : List Compiled) :
    c.linkReferences l (before ++ after) =
      match c.linkReferences l before with
      | .ok l => c.linkReferences l after
      | .error e => .error e := by
  induction before generalizing l with
  | nil => rfl
  | cons r rest ih =>
    rw [List.cons_append, linkReferences, linkReferences]
    split
    · cases l.addReference r with
      | ok l => exact ih l
      | error e => rfl
    · exact ih l

/-- A run over references that are linked keeps what is on offer known. -/
theorem linkReferences_grows {references : List Compiled}
    (hv : ∀ r ∈ references, r.module.isValid ∧ c.importsFrom r.name) {l l' : Linker} (hw : l.WF)
    {known : Scope} (hk : known.Grows l.scope) (h : c.linkReferences l references = .ok l') :
    l'.WF ∧ (references.foldl Scope.declare known).Grows l'.scope := by
  induction references generalizing l known with
  | nil =>
    cases h
    exact ⟨hw, hk⟩
  | cons r rest ih =>
    obtain ⟨hr, hi⟩ := hv r List.mem_cons_self
    rw [linkReferences_cons hi] at h
    obtain ⟨next, ha, -, hw', hg⟩ | ⟨s, fault, ha, -⟩ := Linker.addReference_cases hw hr
    · rw [ha] at h
      exact ih (fun r hr => hv r (List.mem_cons_of_mem _ hr)) hw' ((hk.declare r).trans hg) h
    · rw [ha] at h
      cases h

/-- A run fails at the first reference that cannot be added. -/
theorem linkReferences_error {references : List Compiled}
    (hi : ∀ r ∈ references, c.importsFrom r.name) {l : Linker} {s : Store} {e : InvokeError}
    (h : c.linkReferences l references = .error (s, e)) :
    ∃ before r rest l' fault, references = before ++ r :: rest ∧
      c.linkReferences l before = .ok l' ∧ l'.addReference r = .error (s, fault) ∧
      e = .link r.name fault := by
  induction references generalizing l with
  | nil => cases h
  | cons r rest ih =>
    have hr := hi r List.mem_cons_self
    rw [linkReferences_cons hr] at h
    cases ha : l.addReference r with
    | ok next =>
      rw [ha] at h
      obtain ⟨before, r', rest', l', fault, rfl, hb, he⟩ :=
        ih (fun r hr => hi r (List.mem_cons_of_mem _ hr)) h
      refine ⟨r :: before, r', rest', l', fault, rfl, ?_, he⟩
      rw [linkReferences_cons hr, ha]
      exact hb
    | error failure =>
      obtain ⟨s', fault⟩ := failure
      rw [ha] at h
      cases h
      exact ⟨[], r, rest, l, fault, rfl, rfl, ha, rfl⟩

/-- Behind references that were linked, everything known is on offer. -/
theorem offered_grows {references before : List Compiled}
    (hv : ∀ r ∈ references, r.module.isValid) (hb : before <+: c.linked references) {host : Host}
    {l : Linker} (h : c.linkReferences (.ofHost host) before = .ok l) :
    l.WF ∧ (Scope.after before).Grows l.scope := by
  obtain ⟨hw, hk⟩ := Linker.ofHost_grows host
  refine linkReferences_grows (fun r hr => ?_) hw hk h
  obtain ⟨hm, hi⟩ := mem_linked.1 (hb.mem hr)
  exact ⟨hv r hm, hi⟩

/-- How instantiation ends: with a reference that cannot be added, with the module after all
references were, or well. -/
theorem instantiate_cases {references : List Compiled} (hv : ∀ r ∈ references, r.module.isValid)
    (host : Host) :
    (∃ before r rest l fault, c.linked references = before ++ r :: rest ∧
        c.linkReferences (.ofHost host) before = .ok l ∧
        (c.instantiate host references).2 = .error (.link r.name fault) ∧
        (fault.OfImport → ¬ l.scope.Admits r)) ∨
    (∃ l fault, c.linkReferences (.ofHost host) (c.linked references) = .ok l ∧
        (c.instantiate host references).2 = .error (.instantiate c.name fault) ∧
        (fault.OfImport → ¬ l.scope.Serves c.module) ∧
        ∀ module name, fault = .unknownImport module name →
          ∃ i ∈ c.module.imports, i.module = module ∧ i.name = name ∧
            l.scope.lookup (module, name) = none) ∨
    ∃ l owner, c.linkReferences (.ofHost host) (c.linked references) = .ok l ∧
      (c.instantiate host references).2 = .ok owner ∧ l.scope.Serves c.module := by
  unfold instantiate
  rw [linkReferences_linked]
  cases hl : c.linkReferences (.ofHost host) (c.linked references) with
  | error failure =>
    obtain ⟨s, e⟩ := failure
    obtain ⟨before, r, rest, l, fault, hsplit, hb, ha, rfl⟩ :=
      linkReferences_error (fun r hr => (mem_linked.1 hr).2) hl
    refine .inl ⟨before, r, rest, l, fault, hsplit, hb, rfl, ?_⟩
    have hbefore : before <+: c.linked references := ⟨r :: rest, hsplit.symm⟩
    have hr : r ∈ c.linked references := by simp [hsplit]
    obtain ⟨next, ha', -⟩ | ⟨s', fault', ha', hno⟩ := Linker.addReference_cases
      (offered_grows hv hbefore hb).1 (hv r (mem_linked.1 hr).1)
    · cases ha.symm.trans ha'
    · cases ha.symm.trans ha'
      exact hno
  | ok l =>
    refine .inr ?_
    have hw := (offered_grows hv (List.prefix_refl _) hl).1
    dsimp only
    unfold Linker.instantiate
    obtain ⟨imports, hr, -, hserves⟩ | ⟨fault, hr, hf, hno, hunknown⟩ :=
      Linker.resolve_cases hw c.module
    · simp only [hr]
      cases hs : l.store.instantiate c.module imports with
      | mk s result =>
        cases result with
        | error fault =>
          have hstop := Linker.not_ofImport_of_instantiate (congrArg Prod.snd hs)
          refine .inl ⟨l, fault, rfl, rfl, fun hf => absurd hf hstop, ?_⟩
          rintro module name rfl
          exact absurd trivial hstop
        | ok owner => exact .inr ⟨l, owner, rfl, rfl, hserves⟩
    · simp only [hr]
      exact .inl ⟨l, fault, rfl, rfl, fun _ => hno, hunknown⟩

/-- Every reference that was linked was admitted where it was. -/
theorem admits_of_linked {references before rest : List Compiled} {r : Compiled} {host : Host}
    (hv : ∀ r ∈ references, r.module.isValid)
    (hsplit : c.linked references = before ++ r :: rest) {l l' : Linker}
    (h : c.linkReferences (.ofHost host) (c.linked references) = .ok l)
    (hb : c.linkReferences (.ofHost host) before = .ok l') : l'.scope.Admits r := by
  have hbefore : before <+: c.linked references := ⟨r :: rest, hsplit.symm⟩
  obtain ⟨hm, hi⟩ := mem_linked.1 (show r ∈ c.linked references by simp [hsplit])
  rw [hsplit, linkReferences_append, hb] at h
  dsimp only at h
  rw [linkReferences_cons hi] at h
  obtain ⟨next, ha, hadmits, -⟩ | ⟨s, fault, ha, -⟩ :=
    Linker.addReference_cases (offered_grows hv hbefore hb).1 (hv r hm)
  · exact hadmits
  · rw [ha] at h
    cases h

/-- If all references were linked, those before one of them were, and what was on offer then
admitted it. -/
theorem exists_admits_of_linked {references before rest : List Compiled} {r : Compiled}
    {host : Host} (hv : ∀ r ∈ references, r.module.isValid)
    (hsplit : c.linked references = before ++ r :: rest) {l : Linker}
    (h : c.linkReferences (.ofHost host) (c.linked references) = .ok l) :
    ∃ scope, (Scope.after before).Grows scope ∧ scope.Admits r := by
  have hbefore : before <+: c.linked references := ⟨r :: rest, hsplit.symm⟩
  cases hb : c.linkReferences (.ofHost host) before with
  | error e =>
    rw [hsplit, linkReferences_append, hb] at h
    cases h
  | ok l' =>
    exact ⟨l'.scope, (offered_grows hv hbefore hb).2, admits_of_linked hv hsplit h hb⟩

/-- What is linkable by what is known before is linked in every run. -/
theorem Linkable.links {references : List Compiled} (h : c.Linkable references)
    (hv : ∀ r ∈ references, r.module.isValid) (host : Host) :
    c.Links references (c.Offered host) := by
  constructor
  · rintro before r rest scope hsplit ⟨l, hb, rfl⟩
    have hbefore : before <+: c.linked references := ⟨r :: rest, hsplit.symm⟩
    exact (offered_grows hv hbefore hb).2.admits (h.1 before r rest _ hsplit rfl)
  · rintro scope ⟨l, hl, rfl⟩
    exact (offered_grows hv (List.prefix_refl _) hl).2.serves (h.2 _ rfl)

end

theorem isValid_of_compile {name : String} {bytes : List UInt8} {c : Compiled}
    (h : compile? name bytes = some c) : c.module.isValid := by
  simp only [compile?, bind, Option.bind_eq_some_iff] at h
  obtain ⟨m, -, h⟩ := h
  split at h
  · rename_i hv
    rw [← Option.some.inj h]
    exact hv
  · cases h

end Compiled

end ScriptHost.Wasm

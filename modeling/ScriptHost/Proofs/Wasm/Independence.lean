import ScriptHost.Proofs.Registry.History
import ScriptHost.Proofs.Wasm.Imports

/-!
# What does not depend on the references

A module that imports from the host and the system interface only is accepted whatever modules are
registered. It is linked nevertheless with every reference that has one of these two names, and a
reference cannot export a name there that is defined already. So registering a module can break one
that never mentions it (`Compiled.independence`), if and only if the latter imports anything.
-/

namespace ScriptHost

/-- The name that a call offers a module under. -/
def Registry.Call.name? : Registry.Call → Option String
  | .getOrCompile name _ => some name
  | .loadFile _ path => Path.stem? path
  | .clear => none

namespace Wasm

namespace HostFunction

/-- The functions that can be imported from a module without any reference. -/
def offered (module : String) : List (String × HostFunction × FuncType) :=
  if module = hostModule then own else if module = systemModule then system else []

/-- The name of the host or of the system interface. -/
def isBuiltIn (module : String) : Bool := module = hostModule || module = systemModule

end HostFunction

open HostFunction (isBuiltIn)

namespace Compiled

/-- Everything that the module imports is the host's or the system interface's. -/
def ImportsBuiltIns (c : Compiled) : Prop := ∀ i ∈ c.module.imports, isBuiltIn i.module

/-- With either of the references the module is accepted alike, and runs alike on every host: the
same results or errors, and the same output. -/
structure SameOutcomes (c : Compiled) (references others : List Compiled) : Prop where
  accepted : c.unresolvedImports references = c.unresolvedImports others
  command : ∀ type host,
    c.invokeCommand type host references = c.invokeCommand type host others
  eventHandler : ∀ method host,
    c.invokeEventHandler method host references = c.invokeEventHandler method host others

/-- The reference exports a name that the host or the system interface defines under its name. -/
def Redefines (r : Compiled) : Prop :=
  ∃ e ∈ r.module.exports, ∃ f ∈ HostFunction.offered r.name, f.1 = e.name

section

variable {c : Compiled} {references others : List Compiled}

theorem ImportsBuiltIns.unresolvedImports_eq (h : c.ImportsBuiltIns) :
    c.unresolvedImports references = c.unresolvedImports others := by
  rw [unresolvedImports, unresolvedImports]
  refine congrArg _ (List.filter_congr fun i hi => congrArg _ ?_)
  rw [resolves, resolves]
  obtain hm | hm : i.module = HostFunction.hostModule ∨ i.module = HostFunction.systemModule := by
    simpa [isBuiltIn] using h i hi
  · rw [if_pos hm, if_pos hm]
  · rw [hm]
    rfl

/-- Only the references that are linked matter to an instance. -/
theorem instantiate_congr (h : c.linked references = c.linked others) (host : Host) :
    c.instantiate host references = c.instantiate host others := by
  rw [instantiate, instantiate, linkReferences_linked, h, ← linkReferences_linked]

theorem ImportsBuiltIns.sameOutcomes (h : c.ImportsBuiltIns)
    (hl : c.linked references = c.linked others) : c.SameOutcomes references others where
  accepted := h.unresolvedImports_eq
  command type host := by rw [invokeCommand, invokeCommand, instantiate_congr hl]
  eventHandler method host := by rw [invokeEventHandler, invokeEventHandler, instantiate_congr hl]

/-- What is imported from has one of the two names. -/
theorem ImportsBuiltIns.isBuiltIn_of_importsFrom (h : c.ImportsBuiltIns) {name : String}
    (hi : c.importsFrom name) : isBuiltIn name := by
  obtain ⟨i, hm, hn⟩ := List.any_eq_true.1 hi
  rw [← decide_eq_true_iff.1 hn]
  exact h i hm

/-- References under other names are not linked. -/
theorem ImportsBuiltIns.linked_filter (h : c.ImportsBuiltIns) (references : List Compiled) :
    c.linked (references.filter fun r => isBuiltIn r.name) = c.linked references := by
  rw [linked, linked, List.filter_filter]
  refine List.filter_congr fun r _ => ?_
  cases hr : c.importsFrom r.name with
  | false => rfl
  | true => exact h.isBuiltIn_of_importsFrom hr

/-- Placing a module that is not imported from changes nothing in what is linked. -/
theorem linked_place {m : Compiled} (hm : ¬ c.importsFrom m.name) (modules : List Compiled) :
    c.linked (Registry.place m modules) = c.linked modules := by
  induction modules with
  | nil => exact linked_cons_of_not_importsFrom hm []
  | cons d rest ih =>
    rw [Registry.place]
    split
    · rename_i hd
      rw [linked_cons_of_not_importsFrom hm, linked_cons_of_not_importsFrom (hd ▸ hm)]
    · by_cases hi : c.importsFrom d.name
      · rw [linked_cons_of_importsFrom hi, linked_cons_of_importsFrom hi, ih]
      · rw [linked_cons_of_not_importsFrom hi, linked_cons_of_not_importsFrom hi, ih]

/-- Offering bytes under another name changes nothing in what is linked: either nothing is placed,
or a module of that name. -/
theorem linked_getOrCompile {registry next : Registry} {name : String} {bytes : List UInt8}
    {m : Compiled} (hn : ¬ c.importsFrom name)
    (h : registry.getOrCompile name bytes = .ok (next, m)) :
    c.linked next.modules = c.linked registry.modules := by
  rw [Registry.getOrCompile] at h
  split at h
  · cases h
    rfl
  · rw [compileModule] at h
    split at h
    · rename_i hc
      split at hc
      · rename_i hcompile
        cases hc
        cases h
        exact linked_place (Registry.name_of_compile hcompile ▸ hn) registry.modules
      · cases hc
    · cases h

/-- So does any call that offers bytes under another name. -/
theorem ImportsBuiltIns.linked_perform (h : c.ImportsBuiltIns) {call : Registry.Call}
    (hc : call ≠ .clear) (hn : ∀ name ∈ call.name?, ¬ HostFunction.isBuiltIn name)
    (registry : Registry) :
    c.linked (registry.perform call).modules = c.linked registry.modules := by
  cases call with
  | getOrCompile name bytes =>
    rw [Registry.perform]
    split
    · rename_i hg
      exact linked_getOrCompile (fun hi => hn name rfl (h.isBuiltIn_of_importsFrom hi)) hg
    · rfl
  | loadFile files path =>
    rw [Registry.perform]
    split
    · rename_i hl
      rw [Registry.loadFile] at hl
      split at hl
      · cases hl
      · split at hl
        · cases hl
        · rename_i name hs
          exact linked_getOrCompile (fun hi => hn name hs (h.isBuiltIn_of_importsFrom hi)) hl
    · rfl
  | clear => exact absurd rfl hc

/-- Loading under other names changes nothing, however much is loaded. -/
theorem ImportsBuiltIns.linked_foldl_perform (h : c.ImportsBuiltIns) (calls : List Registry.Call)
    (hc : ∀ call ∈ calls, call ≠ .clear ∧ ∀ name ∈ call.name?, ¬ HostFunction.isBuiltIn name)
    (registry : Registry) :
    c.linked (calls.foldl Registry.perform registry).modules = c.linked registry.modules := by
  induction calls generalizing registry with
  | nil => rfl
  | cons call rest ih =>
    obtain ⟨hclear, hname⟩ := hc call List.mem_cons_self
    rw [List.foldl_cons, ih fun call hm => hc call (List.mem_cons_of_mem _ hm)]
    exact h.linked_perform hclear hname registry

/-! ## References that break a module -/

/-- What the host offers can be imported behind all references. -/
theorem isSome_after_offered {module : String} {f : String × HostFunction × FuncType}
    (hf : f ∈ HostFunction.offered module) (before : List Compiled) :
    ((Scope.after before).lookup (module, f.1)).isSome := by
  rw [HostFunction.offered] at hf
  refine Scope.isSome_foldl_declare (List.lookup_isSome_iff.2 ?_) before
  refine ⟨((module, f.1), .func f.2.2), ?_, beq_self_eq_true _⟩
  split at hf
  · rename_i hm
    subst hm
    exact List.mem_append_left _ (List.mem_map.2 ⟨f, List.mem_reverse.2 hf, rfl⟩)
  · split at hf
    · rename_i hm
      subst hm
      exact List.mem_append_right _ (List.mem_map.2 ⟨f, List.mem_reverse.2 hf, rfl⟩)
    · cases hf

/-- Behind no references is one admitted that exports a name of the host. -/
theorem Redefines.not_admits {r : Compiled} (h : r.Redefines) {before : List Compiled}
    {scope : Scope} (hg : (Scope.after before).Grows scope) : ¬ scope.Admits r := by
  obtain ⟨e, he, f, hf, hn⟩ := h
  intro ha
  have := isSome_after_offered hf before
  rw [hn, hg.lookup_eq_none.1 (ha.2 e he)] at this
  cases this

/-- A module that is linked with such a reference is never made. -/
theorem Redefines.instantiate_eq_link {r : Compiled} (h : r.Redefines)
    (hv : ∀ r ∈ references, r.module.isValid) (hr : r ∈ c.linked references) (host : Host) :
    ∃ name fault, (c.instantiate host references).2 = .error (.link name fault) := by
  -- if all references were linked, this one was admitted
  have contra {l : Linker} (hl : c.linkReferences (.ofHost host) (c.linked references) = .ok l) :
      False := by
    obtain ⟨before, rest, hsplit⟩ := List.append_of_mem hr
    obtain ⟨scope, hg, hadmits⟩ := exists_admits_of_linked hv hsplit hl
    exact h.not_admits hg hadmits
  obtain ⟨_, r', _, _, fault, _, _, hresult, -⟩ | ⟨l, _, hl, -⟩ | ⟨l, _, hl, -⟩ :=
    instantiate_cases (c := c) hv host
  · exact ⟨r'.name, fault, hresult⟩
  · exact (contra hl).elim
  · exact (contra hl).elim

/-- Without a reference to link, none fails. -/
theorem instantiate_ne_link (hl : c.linked references = []) (host : Host) (name : String)
    (fault : LinkFault) : (c.instantiate host references).2 ≠ .error (.link name fault) := by
  rw [instantiate, linkReferences_linked, hl, linkReferences]
  dsimp only
  split <;> rintro ⟨⟩

/-- No handle fails by a reference. -/
theorem mapM_handleValue_ne_link {f : ValType × Nat → Except InvokeError Value}
    (hf : ∀ x, f x = handleValue x.1 x.2) (xs : List (ValType × Nat)) (name : String)
    (fault : LinkFault) : xs.mapM f ≠ .error (.link name fault) := by
  intro hm
  obtain ⟨args, hargs, -⟩ | ⟨e, hargs, x, -, hx⟩ := mapM_cases f xs
  · rw [hargs] at hm
    cases hm
  · rw [hargs] at hm
    cases hm
    obtain ⟨t, handle⟩ := x
    rw [hf] at hx
    cases t <;> cases hx

/-- An event handler fails by a reference just if the instance does. -/
theorem invokeEventHandler_eq_link {host : Host} {name : String} {fault : LinkFault}
    {method : Method} :
    (c.invokeEventHandler method host references).2 = .error (.link name fault) ↔
      (c.instantiate host references).2 = .error (.link name fault) := by
  rw [invokeEventHandler]
  rcases c.instantiate host references with ⟨s, e | owner⟩
  · simp only [Except.error.injEq]
  · refine iff_of_false ?_ (by rintro ⟨⟩)
    dsimp only
    split
    · rintro ⟨⟩
    · split
      · rename_i hargs
        rintro ⟨⟩
        exact mapM_handleValue_ne_link (fun _ => rfl) _ name fault hargs
      · split <;> rintro ⟨⟩

/-- A reference that redefines a name breaks the module, whatever it would do without. -/
theorem Redefines.not_sameOutcomes {r : Compiled} (h : r.Redefines)
    (hv : ∀ r ∈ references, r.module.isValid) (hr : r ∈ c.linked references)
    (ho : c.linked others = []) : ¬ c.SameOutcomes references others := by
  intro hsame
  obtain ⟨name, fault, hi⟩ := h.instantiate_eq_link hv hr default
  have he : (c.invokeEventHandler default default references).2 = .error (.link name fault) :=
    invokeEventHandler_eq_link.2 hi
  rw [hsame.eventHandler] at he
  exact instantiate_ne_link ho default name fault (invokeEventHandler_eq_link.1 he)

end

/-- The binary of a module that exports functions of the names `print` and `proc_exit`. -/
def redefiningBinary : List UInt8 := [
    0x00, 0x61, 0x73, 0x6d, 0x01, 0x00, 0x00, 0x00, 0x01, 0x04, 0x01, 0x60, 0x00, 0x00, 0x03, 0x02,
    0x01, 0x00, 0x07, 0x15, 0x02, 0x05, 0x70, 0x72, 0x69, 0x6e, 0x74, 0x00, 0x00, 0x09, 0x70, 0x72,
    0x6f, 0x63, 0x5f, 0x65, 0x78, 0x69, 0x74, 0x00, 0x00, 0x0a, 0x04, 0x01, 0x02, 0x00, 0x0b]

/-- Under either name it redefines what the host offers. -/
theorem redefines_redefiningBinary {name : String} (h : isBuiltIn name) :
    ∃ r, compile? name redefiningBinary = some r ∧ r.Redefines := by
  have h : name = HostFunction.hostModule ∨ name = HostFunction.systemModule := by
    simpa [isBuiltIn] using h
  have hexports : (compile? name redefiningBinary).map (fun r => r.module.exports) =
      some [⟨"print", .func, 0⟩, ⟨"proc_exit", .func, 0⟩] := by
    rcases h with rfl | rfl <;> decide +kernel
  obtain ⟨r, hr, he⟩ := Option.map_eq_some_iff.1 hexports
  refine ⟨r, hr, ?_⟩
  rw [Redefines, he, Registry.name_of_compile hr]
  rcases h with rfl | rfl <;> decide

/-- A module that imports nothing is linked with nothing; any other is broken by some reference. -/
theorem ImportsBuiltIns.forall_sameOutcomes_iff {c : Compiled} (h : c.ImportsBuiltIns) :
    (∀ references others : List Compiled, (∀ r ∈ references, r.module.isValid) →
        c.SameOutcomes references others) ↔ c.module.imports = [] := by
  constructor
  · intro hall
    by_contra hne
    obtain ⟨i, hi⟩ := List.exists_mem_of_ne_nil _ hne
    obtain ⟨r, hr, hredefines⟩ := redefines_redefiningBinary (h i hi)
    have hv : ∀ r' ∈ [r], r'.module.isValid := by
      intro r' hm
      rw [List.mem_singleton.1 hm]
      exact isValid_of_compile hr
    have hlinked : r ∈ c.linked [r] := by
      refine mem_linked.2 ⟨List.mem_singleton_self r, List.any_eq_true.2 ⟨i, hi, ?_⟩⟩
      rw [Registry.name_of_compile hr]
      exact decide_eq_true rfl
    exact hredefines.not_sameOutcomes hv hlinked rfl (hall [r] [] hv)
  · intro hnil references others _
    have hnone (references : List Compiled) : c.linked references = [] := by
      refine List.filter_eq_nil_iff.2 fun r _ => ?_
      simp [importsFrom, Module.importsFrom, hnil]
    exact h.sameOutcomes ((hnone references).trans (hnone others).symm)

/-- **What does not depend on the references.** Whether a module that imports from the host and the
system interface only is accepted never does. How it runs depends on the references that have one of
these two names and on no others, so that loading any modules under other names changes nothing. A
reference that it is linked with and that redefines a name makes every run fail. So it depends on no
references at all if and only if it imports nothing. -/
theorem independence (c : Compiled) (h : c.ImportsBuiltIns) :
    (∀ references others, c.unresolvedImports references = c.unresolvedImports others) ∧
    (∀ references others : List Compiled,
      (references.filter fun r => isBuiltIn r.name) = others.filter (fun r => isBuiltIn r.name) →
      c.SameOutcomes references others) ∧
    (∀ (registry : Registry) (calls : List Registry.Call),
      (∀ call ∈ calls, call ≠ .clear ∧ ∀ name ∈ call.name?, ¬ isBuiltIn name) →
      c.SameOutcomes (calls.foldl Registry.perform registry).modules registry.modules) ∧
    (∀ references : List Compiled, (∀ r ∈ references, r.module.isValid) →
      ∀ r ∈ c.linked references, r.Redefines → ∀ others, c.linked others = [] →
      ¬ c.SameOutcomes references others) ∧
    ((∀ references others : List Compiled, (∀ r ∈ references, r.module.isValid) →
      c.SameOutcomes references others) ↔ c.module.imports = []) := by
  refine ⟨fun _ _ => h.unresolvedImports_eq, fun references others hf => ?_,
    fun registry calls hc => ?_, fun references hv r hr hd others ho => ?_,
    h.forall_sameOutcomes_iff⟩
  · refine h.sameOutcomes ?_
    rw [← h.linked_filter references, hf, h.linked_filter]
  · exact h.sameOutcomes (h.linked_foldl_perform calls hc registry)
  · exact hd.not_sameOutcomes hv hr ho

/-- The binary of a command that imports `print` from the host and returns 0. -/
def printingBinary : List UInt8 := [
    0x00, 0x61, 0x73, 0x6d, 0x01, 0x00, 0x00, 0x00, 0x01, 0x0b, 0x02, 0x60, 0x02, 0x7f, 0x7f, 0x00,
    0x60, 0x01, 0x7f, 0x01, 0x7f, 0x02, 0x0e, 0x01, 0x04, 0x68, 0x6f, 0x73, 0x74, 0x05, 0x70, 0x72,
    0x69, 0x6e, 0x74, 0x00, 0x00, 0x03, 0x02, 0x01, 0x01, 0x07, 0x10, 0x01, 0x0c, 0x54, 0x6f, 0x6f,
    0x6c, 0x2e, 0x65, 0x78, 0x65, 0x63, 0x75, 0x74, 0x65, 0x00, 0x01, 0x0a, 0x06, 0x01, 0x04, 0x00,
    0x41, 0x00, 0x0b]

theorem compile_printingBinary :
    ∃ c, compile? "script" printingBinary = some c ∧
      c.module.imports = [⟨HostFunction.hostModule, "print", .func 0⟩] := by
  have h : (compile? "script" printingBinary).map (fun c => c.module.imports) =
      some [⟨HostFunction.hostModule, "print", .func 0⟩] := by decide +kernel
  exact Option.map_eq_some_iff.1 h

theorem independence_printingBinary :
    ∃ c, compile? "script" printingBinary = some c ∧ c.ImportsBuiltIns ∧
      ¬ ∀ references others : List Compiled, (∀ r ∈ references, r.module.isValid) →
        c.SameOutcomes references others := by
  obtain ⟨c, hc, himports⟩ := compile_printingBinary
  have h : c.ImportsBuiltIns := by
    rw [ImportsBuiltIns, himports]
    decide
  exact ⟨c, hc, h, fun hall => by
    have := (independence c h).2.2.2.2.1 hall
    rw [himports] at this
    cases this⟩

/-- The command runs, and it does not once a module that exports `print` is registered as `host`. -/
theorem not_sameOutcomes_printingBinary :
    ∃ c r, compile? "script" printingBinary = some c ∧ c.ImportsBuiltIns ∧
      compile? "host" redefiningBinary = some r ∧ ¬ c.SameOutcomes [] [r] ∧
      ∃ type, c.shape.findCommand? none = some type ∧
        (c.invokeCommand type {} []).2 = .ok ⟨0, ""⟩ ∧
        (c.invokeCommand type {} [r]).2 =
          .error (.link "host" (.definedTwice "host" "print")) := by
  have h : (compile? "script" printingBinary).bind (fun c =>
      (compile? "host" redefiningBinary).bind fun r =>
        (c.shape.findCommand? none).map fun type =>
          (c.module.imports, (c.invokeCommand type {} []).2, (c.invokeCommand type {} [r]).2)) =
      some ([⟨HostFunction.hostModule, "print", .func 0⟩], .ok ⟨0, ""⟩,
        .error (.link "host" (.definedTwice "host" "print"))) := by decide +kernel
  obtain ⟨c, hc, h⟩ := Option.bind_eq_some_iff.1 h
  obtain ⟨r, hr, h⟩ := Option.bind_eq_some_iff.1 h
  obtain ⟨type, htype, h⟩ := Option.map_eq_some_iff.1 h
  obtain ⟨himports, hruns, hfails⟩ : _ ∧ _ ∧ _ := by simpa only [Prod.mk.injEq] using h
  refine ⟨c, r, hc, ?_, hr, fun hsame => ?_, type, htype, hruns, hfails⟩
  · rw [ImportsBuiltIns, himports]
    decide
  · rw [hsame.command, hfails] at hruns
    cases hruns

end Compiled

end Wasm

end ScriptHost

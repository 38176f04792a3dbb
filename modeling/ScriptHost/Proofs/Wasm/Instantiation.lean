import ScriptHost.Proofs.Wasm.Imports
import ScriptHost.Proofs.Wasm.Safety

/-!
# Instances of valid modules are sound

A store stays sound when an instance of a valid module is made in it (`Store.Sound.instantiate`):
what the module defines is of the type that it declares, initial values are of theirs, segments
refer to functions that are there, and the start function is called at its type. So linking valid
modules ends with a sound store, or fails by an import or where code traps
(`Compiled.instantiate_sound`).
-/

namespace ScriptHost.Wasm

/-! ## What a module has of a kind -/

namespace Module

variable {m : Module} {found : List ExternType}

theorem imported_eq (h : m.SatisfiedBy found) {α : Type} (kind : ExternKind)
    (part : Import → Option α) (make : α → ExternType)
    (hp : ∀ i t asked, m.importType? i = some asked → t.fits asked →
      (asked.kind = kind → ∃ x, part i = some x ∧ t = make x) ∧
      (asked.kind ≠ kind → part i = none)) :
    found.filter (fun t => t.kind = kind) = (m.imports.filterMap part).map make := by
  rw [SatisfiedBy] at h
  generalize m.imports = imports at h
  induction h with
  | nil => rfl
  | @cons i t imports found ht _ ih =>
    obtain ⟨asked, ha, hf⟩ := ht
    have hk := ExternType.kind_of_fits hf
    obtain ⟨hsome, hnone⟩ := hp i t asked ha hf
    by_cases hkind : asked.kind = kind
    · obtain ⟨x, hx, rfl⟩ := hsome hkind
      rw [List.filter_cons_of_pos (by simpa [hk] using hkind), ih, List.filterMap_cons_some hx,
        List.map_cons]
    · rw [List.filter_cons_of_neg (by simpa [hk] using hkind), ih,
        List.filterMap_cons_none (hnone hkind)]

/-- The functions of a module are of the types that it declares. -/
theorem typesOf_func (h : m.SatisfiedBy found) :
    m.typesOf found .func =
      m.functionTypes.map fun n => .func (m.types[n]?.getD default) := by
  rw [typesOf, functionTypes, List.map_append, own]
  refine congrArg (· ++ _) (imported_eq h .func _ _ fun i t asked ha hf => ?_)
  unfold importType? at ha
  split at ha
  · rename_i n hi
    obtain ⟨u, hu, rfl⟩ := Option.map_eq_some_iff.1 ha
    refine ⟨fun _ => ⟨n, by rw [hi], ?_⟩, fun hne => absurd rfl hne⟩
    cases t with
    | func t => rw [hu, Option.getD_some, of_decide_eq_true hf]
    | _ => cases hf
  all_goals
    rename_i hi
    cases ha
    exact ⟨fun hk => (by cases hk), fun _ => by rw [hi]⟩

theorem imported_globals (h : m.SatisfiedBy found) :
    found.filter (fun t => t.kind = .global) = m.importedGlobals.map .global := by
  refine imported_eq h .global _ _ fun i t asked ha hf => ?_
  unfold importType? at ha
  split at ha
  · rename_i n hi
    obtain ⟨u, hu, rfl⟩ := Option.map_eq_some_iff.1 ha
    exact ⟨fun hk => (by cases hk), fun _ => by rw [hi]⟩
  case h_4 g hi =>
    cases ha
    refine ⟨fun _ => ⟨g, by rw [hi], ?_⟩, fun hne => absurd rfl hne⟩
    cases t with
    | global t => rw [of_decide_eq_true hf]
    | _ => cases hf
  all_goals
    rename_i hi
    cases ha
    exact ⟨fun hk => (by cases hk), fun _ => by rw [hi]⟩

theorem typesOf_global (h : m.SatisfiedBy found) :
    m.typesOf found .global = m.allGlobals.map .global := by
  rw [typesOf, imported_globals h, allGlobals, List.map_append, own, List.map_map]
  rfl

theorem length_typesOf_table (h : m.SatisfiedBy found) :
    (m.typesOf found .table).length = m.allTables.length := by
  rw [typesOf, allTables, List.length_append, List.length_append, own, List.length_map,
    List.length_map, length_filter_kind h .table]
  intro i asked ha
  rw [kind_of_importType ha]
  cases i.type <;> simp [ImportType.kind]

theorem length_typesOf_memory (h : m.SatisfiedBy found) :
    (m.typesOf found .memory).length = m.allMemories.length := by
  rw [typesOf, allMemories, List.length_append, List.length_append, own, List.length_map,
    length_filter_kind h .memory]
  intro i asked ha
  rw [kind_of_importType ha]
  cases i.type <;> simp [ImportType.kind]

/-! ## What is asked of a valid module -/

theorem exists_type {m : Module} (h : m.isValid) {n : Nat} (hn : n ∈ m.functionTypes) :
    ∃ t, m.types[n]? = some t := by
  simp only [isValid, Bool.and_eq_true, List.all_eq_true, decide_eq_true_eq] at h
  exact ⟨_, List.getElem?_eq_getElem (h.1.1.1.1.1.1.1.1.1.1.1.1.1.2 n hn)⟩

theorem isInitial_global {m : Module} (h : m.isValid) {g : Global} (hg : g ∈ m.globals) :
    m.context.isInitial g.type.type g.init := by
  simp only [isValid, Bool.and_eq_true, List.all_eq_true] at h
  exact h.1.1.1.1.1.1.1.1.2 g hg

theorem validStart_start {m : Module} (h : m.isValid) : validStart m.context m.start := by
  simp only [isValid, Bool.and_eq_true] at h
  exact h.1.1.1.1.1.2

theorem validElements_elements {m : Module} (h : m.isValid) {e : ElementSegment}
    (he : e ∈ m.elements) : validElements m.context e := by
  simp only [isValid, Bool.and_eq_true, List.all_eq_true] at h
  exact h.1.1.1.1.2 e he

theorem isFunction_code {m : Module} (h : m.isValid) {n : Nat} {code : Code}
    (hc : (n, code) ∈ m.functions.zip m.codes) : m.context.isFunction n code := by
  simp only [isValid, Bool.and_eq_true, List.all_eq_true] at h
  exact h.2 (n, code) hc

end Module

/-! ## Faults -/

/-- The fault is not that code has got stuck. -/
def LinkFault.NotStuck : LinkFault → Prop
  | .stopped reason _ => reason ≠ .stuck
  | .unknownImport _ _ | .incompatible _ _ | .definedTwice _ _ => True

theorem LinkFault.OfImport.notStuck {fault : LinkFault} (h : fault.OfImport) : fault.NotStuck := by
  cases fault with
  | stopped reason inCode => cases h
  | _ => trivial

/-! ## Initial values -/

namespace Context

/-- Code that stands for an initial value is evaluated by what each of its instructions does to a
stack. -/
theorem foldl_typed {c : Context} {s : Store} {run : List Value → Instr → List Value}
    (hrun : ∀ vs ts instr o, s.Typed vs ts → c.isConstant instr → c.check (.of ts) instr = some o →
      ∃ ts', o = .of ts' ∧ s.Typed (run vs instr) ts')
    {code : List Instr} {vs : List Value} {ts us : List ValType} (hv : s.Typed vs ts)
    (hc : code.all c.isConstant) (h : c.Leads (.of ts) code us) :
    s.Typed (code.foldl run vs) us.reverse := by
  induction code generalizing vs ts with
  | nil =>
    rw [Context.leads_nil] at h
    exact h ▸ hv
  | cons instr code ih =>
    rw [List.all_cons, Bool.and_eq_true] at hc
    obtain ⟨o, ho, hrest⟩ := leads_cons.1 h
    obtain ⟨ts', rfl, hv'⟩ := hrun vs ts instr o hv hc.1 ho
    exact ih hv' hc.2 hrest

end Context

namespace Store

variable {s : Store} {m : Module} {imports : List Extern} {found : List ExternType}

/-- What satisfies the imports of a kind. -/
theorem imported_places (hi : List.Forall₂ (fun e t => s.externType? e = some t) imports found)
    (kind : ExternKind) :
    List.Forall₂ (fun a t => s.externType? ⟨kind, a⟩ = some t)
      ((imports.filter fun e => e.kind = kind).map Extern.address)
      (found.filter fun t => t.kind = kind) := by
  induction hi with
  | nil => exact .nil
  | @cons e t imports found ht _ ih =>
    have hk := kind_of_externType ht
    by_cases he : e.kind = kind
    · subst he
      rw [List.filter_cons_of_pos (by simp), List.filter_cons_of_pos (by simpa using hk),
        List.map_cons]
      exact .cons ht ih
    · rw [List.filter_cons_of_neg (by simpa using he),
        List.filter_cons_of_neg (by simpa [hk] using he)]
      exact ih

/-- Everything that a module has of a kind stands at its place, with its type. -/
theorem placesOf_getElem? (hv : m.isValid)
    (hi : List.Forall₂ (fun e t => s.externType? e = some t) imports found) {kind : ExternKind}
    {n : Nat} {t : ExternType} (h : (m.typesOf found kind)[n]? = some t) :
    ∃ a, (s.placesOf m imports kind)[n]? = some a ∧
      (s.allocate m imports).1.externType? ⟨kind, a⟩ = some t := by
  have hall := congrArg (·[n]?) (map_types_placesOf (Module.length_codes hv) hi kind)
  simp only [List.getElem?_map, Array.getElem?_toList, h, Option.map_some] at hall
  obtain ⟨a, ha, hta⟩ := Option.map_eq_some_iff.1 hall
  exact ⟨a, ha, hta⟩

/-- No function of an instance is missing. -/
theorem knows_placesOf (hv : m.isValid)
    (hi : List.Forall₂ (fun e t => s.externType? e = some t) imports found) (n : Nat) :
    (s.allocate m imports).1.Knows (s.placesOf m imports .func)[n]? := by
  intro a ha
  have hall := congrArg (·[n]?) (map_types_placesOf (Module.length_codes hv) hi .func)
  simp only [List.getElem?_map, Array.getElem?_toList, Option.mem_def.1 ha, Option.map_some] at hall
  cases hn : (m.typesOf found .func)[n]? with
  | none =>
    rw [hn] at hall
    cases hall
  | some t =>
    rw [hn] at hall
    obtain ⟨f, hf, -⟩ := Option.map_eq_some_iff.1 (Option.some.inj hall)
    exact (Array.getElem?_eq_some_iff.1 hf).1

/-- An imported global was there before. -/
theorem imported_global (hi : List.Forall₂ (fun e t => s.externType? e = some t) imports found)
    (hf : m.SatisfiedBy found) {n : Nat} {g : GlobalType} (h : m.importedGlobals[n]? = some g) :
    ∃ a x, (s.placesOf m imports .global)[n]? = some a ∧ s.globals[a]? = some x ∧ x.type = g := by
  have hplaces := imported_places hi .global
  rw [Module.imported_globals hf] at hplaces
  obtain ⟨a, ha, ht⟩ := exists_getElem?_of_forall₂ hplaces
    (List.getElem?_map .. |>.trans (congrArg _ h))
  obtain ⟨x, hx, hxg⟩ := Option.map_eq_some_iff.1 ht
  refine ⟨a, x, ?_, hx, ExternType.global.inj hxg⟩
  rw [placesOf, places, List.getElem?_toArray]
  exact (List.getElem?_append_left (List.getElem?_eq_some_iff.1 ha).1).trans ha

theorem headD_typed {vs : List Value} {t : ValType} (h : s.Typed vs [t].reverse) :
    (vs.headD default).Typed s t := by
  obtain ⟨v, _, rfl, hv, -⟩ := h.of_cons
  exact hv

/-- An initial value is of the type that it was checked for, wherever the globals that were there
before still are. -/
theorem initial_typed (hs : s.Sound) (hv : m.isValid)
    (hi : List.Forall₂ (fun e t => s.externType? e = some t) imports found)
    (hf : m.SatisfiedBy found) (hg : s.Extends (s.allocate m imports).1) {s' : Store}
    (hold : Kept (· = ·) s.globals s'.globals) {t : ValType} {code : List Instr}
    (hc : m.context.isInitial t code) :
    (s'.initial (s.placesOf m imports .func) (s.placesOf m imports .global) code).Typed
      (s.allocate m imports).1 t := by
  have known := knows_placesOf (s := s) hv hi
  rw [Context.isInitial, Bool.and_eq_true] at hc
  obtain ⟨hconstant, hexact⟩ := hc
  have hleads : m.context.Leads (.of []) code [t] := by
    split at hexact
    · rename_i o ho
      exact ⟨o, ho, hexact⟩
    · cases hexact
  unfold initial
  refine headD_typed (Context.foldl_typed (fun vs ts instr o hvs hc ho => ?_) .nil hconstant hleads)
  cases instr with
  | basic op =>
    cases op with
    | i32 n =>
      cases ho
      exact ⟨_, rfl, .cons (.i32 n) hvs⟩
    | i64 n =>
      cases ho
      exact ⟨_, rfl, .cons (.i64 n) hvs⟩
    | f32 n =>
      cases ho
      exact ⟨_, rfl, .cons (.f32 n) hvs⟩
    | f64 n =>
      cases ho
      exact ⟨_, rfl, .cons (.f64 n) hvs⟩
    | refNull =>
      cases ho
      exact ⟨_, rfl, .cons (.funcref (knows_none _)) hvs⟩
    | refFunc n =>
      simp only [Context.check, Context.checkBasic, bind, Option.bind_eq_some_iff,
        Operands.push_of] at ho
      obtain ⟨_, -, ho⟩ := ho
      split at ho
      · cases ho
        exact ⟨_, rfl, .cons (.funcref (known n)) hvs⟩
      · cases ho
    | globalGet n =>
      obtain ⟨g, hn⟩ : ∃ g, m.importedGlobals[n]? = some g := by
        cases hn : m.importedGlobals[n]? with
        | some g => exact ⟨g, rfl⟩
        | none => simp [Context.isConstant, Module.context, hn] at hc
      have hall : m.context.globals[n]? = some g :=
        (List.getElem?_append_left (List.getElem?_eq_some_iff.1 hn).1).trans hn
      simp only [Context.check, Context.checkBasic, bind, Option.bind_eq_some_iff, hall,
        Operands.push_of, pure, Option.some.injEq, exists_eq_left'] at ho
      obtain ⟨a, x, ha, hx, rfl⟩ := imported_global hi hf hn
      obtain ⟨_, hx', rfl⟩ := hold a x hx
      refine ⟨_, ho.symm, ?_⟩
      simp only [ha, Option.bind_some, hx', Option.map_some, Option.getD_some]
      exact .cons ((hs.globals x (Array.mem_of_getElem? hx)).mono hg) hvs
    | numeric op =>
      cases op with
      | intBinary w op =>
        obtain ⟨rest, rfl, rfl⟩ := Operands.apply_of.1 ho
        obtain ⟨b, _, rfl, -, hb⟩ := hvs.of_cons
        obtain ⟨a, vs, rfl, -, hrest⟩ := hb.of_cons
        cases op with
        | add | sub | mul => exact ⟨_, rfl, .cons (.ofBits _ _ _) hrest⟩
        | _ => cases hc
      | _ => cases hc
    | _ => cases hc
  | _ => cases hc

theorem known_of_typed {v : Value} (h : v.Typed s .funcref) : s.Knows (referred v) := by
  cases h with
  | funcref h => exact h

/-- The segments of a module refer to functions that are there. -/
theorem known_elements (hs : s.Sound) (hv : m.isValid)
    (hi : List.Forall₂ (fun e t => s.externType? e = some t) imports found)
    (hf : m.SatisfiedBy found) (hg : s.Extends (s.allocate m imports).1) {i : Instance}
    (hlast : (s.allocate m imports).1.instances[(s.allocate m imports).2]? = some i) :
    ∀ items ∈ i.elements, ∀ r ∈ items, (s.allocate m imports).1.Knows r := by
  cases Array.getElem?_push_size.symm.trans hlast
  intro items hm r hr
  obtain ⟨e, he, rfl⟩ := List.mem_map.1 (List.mem_toArray.1 hm)
  have hvalid := Module.validElements_elements hv he
  rw [Module.validElements, Bool.and_eq_true] at hvalid
  cases hitems : e.items with
  | functions indices =>
    rw [hitems] at hr
    obtain ⟨n, -, rfl⟩ := List.mem_map.1 hr
    exact knows_placesOf hv hi n
  | expressions codes =>
    rw [hitems] at hr hvalid
    obtain ⟨code, hcode, rfl⟩ := List.mem_map.1 hr
    exact known_of_typed (initial_typed hs hv hi hf hg (.append (fun _ => rfl) _ _)
      (List.all_eq_true.1 hvalid.2 code hcode))

/-- **Places are sound.** What a valid module defines is of the type that it declares. -/
theorem Sound.allocate (hs : s.Sound) (hv : m.isValid)
    (hi : List.Forall₂ (fun e t => s.externType? e = some t) imports found)
    (hf : m.SatisfiedBy found) :
    s.Becomes (s.allocate m imports).1 ∧
      ∃ i, (s.allocate m imports).1.instances[(s.allocate m imports).2]? = some i ∧
        i.module = m := by
  have hext : s.Extends (s.allocate m imports).1 :=
    { s.allocate_grows m imports with modules := .push Instance.SameModule.refl _ _ }
  have hplace {kind : ExternKind} {n : Nat} {t : ExternType}
      (h : (m.typesOf found kind)[n]? = some t) := placesOf_getElem? (s := s) hv hi h
  refine ⟨hs.becomes hext (fun f hm => ?_) (fun x hm => ?_) (fun g hm => ?_) (fun j hm => ?_),
    _, Array.getElem?_push_size, rfl⟩
  · rcases Array.mem_append.1 hm with hm | hm
    · exact .inl hm
    · obtain ⟨⟨n, code⟩, hz, rfl⟩ := List.mem_map.1 (List.mem_toArray.1 hm)
      obtain ⟨t, ht⟩ := Module.exists_type hv
        (List.mem_append_right _ (List.of_mem_zip hz).1 : n ∈ m.functionTypes)
      dsimp only
      rw [ht, Option.getD_some]
      exact .inr (.code Array.getElem?_push_size ht (Module.isFunction_code hv hz))
  · rcases Array.mem_append.1 hm with hm | hm
    · exact .inl hm
    · obtain ⟨table, -, rfl⟩ := List.mem_map.1 (List.mem_toArray.1 hm)
      refine .inr fun r hr => ?_
      rw [(Array.mem_replicate.1 hr).2]
      exact knows_none _
  · rcases Array.mem_append.1 hm with hm | hm
    · exact .inl hm
    · obtain ⟨g, hg, rfl⟩ := List.mem_map.1 (List.mem_toArray.1 hm)
      exact .inr (initial_typed hs hv hi hf hext (.refl (fun _ => rfl) _)
        (Module.isInitial_global hv hg))
  · rcases Array.mem_push.1 hm with hm | rfl
    · exact .inl hm
    · refine .inr ⟨fun n t ht => ?_, fun n hn => ?_, fun n hn => ?_, fun n t ht => ?_,
        known_elements hs hv hi hf hext Array.getElem?_push_size⟩
      · obtain ⟨k, hk, ht⟩ := Option.bind_eq_some_iff.1 ht
        have hn : (m.typesOf found .func)[n]? = some (.func t) := by
          rw [Module.typesOf_func hf, List.getElem?_map, hk, Option.map_some, ht, Option.getD_some]
        obtain ⟨a, ha, hat⟩ := hplace hn
        obtain ⟨f, hf, hft⟩ := Option.map_eq_some_iff.1 hat
        exact ⟨a, f, ha, hf, ExternType.func.inj hft⟩
      · rw [← Module.length_typesOf_table hf] at hn
        obtain ⟨a, ha, hat⟩ := hplace (List.getElem?_eq_getElem hn)
        obtain ⟨x, hx, -⟩ := Option.map_eq_some_iff.1 hat
        exact ⟨a, x, ha, hx⟩
      · rw [← Module.length_typesOf_memory hf] at hn
        obtain ⟨a, ha, hat⟩ := hplace (List.getElem?_eq_getElem hn)
        obtain ⟨x, hx, -⟩ := Option.map_eq_some_iff.1 hat
        exact ⟨a, x, ha, hx⟩
      · have hn : (m.typesOf found .global)[n]? = some (.global t) := by
          rw [Module.typesOf_global hf, List.getElem?_map, ht, Option.map_some]
        obtain ⟨a, ha, hat⟩ := hplace hn
        obtain ⟨g, hg, hgt⟩ := Option.map_eq_some_iff.1 hat
        exact ⟨a, g, ha, hg, ExternType.global.inj hgt⟩

/-! ## Making an instance -/

theorem Sound.copyElements (hs : s.Sound) (owner : Nat) (segments : List (ElementSegment × Nat)) :
    s.Becomes (copied (s.copyElements owner segments)) := by
  induction segments generalizing s with
  | nil => exact hs.becomes_self
  | cons segment rest ih =>
    obtain ⟨e, n⟩ := segment
    rw [Store.copyElements]
    split
    · exact hs.becomes_self
    · rename_i i hi
      have hd := hs.dropElements hi n
      dsimp only
      split
      · exact ih hs
      · exact hd.trans (ih hd.sound)
      · split
        · exact hs.becomes_self
        · rename_i a x hx
          split
          · rename_i u hw
            have hb := hd.trans (hd.sound.writeTable (i := i) (a := a) hx hw fun r hr =>
              ((hs.instance_sound hi).segment n r hr).mono hd.grown)
            exact hb.trans (ih hb.sound)
          · exact hs.becomes_self

theorem Sound.copyData (hs : s.Sound) (owner : Nat) (segments : List (DataSegment × Nat)) :
    s.Becomes (copied (s.copyData owner segments)) := by
  induction segments generalizing s with
  | nil => exact hs.becomes_self
  | cons segment rest ih =>
    obtain ⟨d, n⟩ := segment
    rw [Store.copyData]
    split
    · exact hs.becomes_self
    · rename_i i hi
      have hd := hs.dropData hi n
      dsimp only
      split
      · exact ih hs
      · exact ih hs
      · split
        · exact hs.becomes_self
        · rename_i a x hx
          split
          · rename_i u hw
            have hb := hd.trans (hd.sound.setMemory (a := a) (memory?_eq_some hx)
              (Memory.write?_grows hw))
            exact hb.trans (ih hb.sound)
          · exact hs.becomes_self

/-- The start function is called at its type. -/
theorem Sound.start (hs : s.Sound) {owner : Nat} (hv : m.isValid) {i : Instance}
    (hi : s.instances[owner]? = some i) (hm : i.module = m) :
    s.Becomes (s.start owner m).1 ∧
      ∀ fault, (s.start owner m).2 = .error fault → fault.NotStuck := by
  unfold Store.start
  split
  · rename_i n j hn hj
    cases hi.symm.trans hj
    have hstart := Module.validStart_start hv
    rw [hn] at hstart
    have ht : m.functionType? n = some ⟨[], []⟩ := of_decide_eq_true hstart
    obtain ⟨a, f, ha, hf, hft⟩ := (hs.instance_sound hi).functions n _ (hm ▸ ht)
    have hargs : s.Typed [] f.type.params := by
      rw [hft]
      exact .nil
    have hcall := hs.call hf hargs
    rw [Array.getD_eq_getD_getElem?, ha, Option.getD_some]
    generalize s.call a [] = ended at hcall
    cases hcall with
    | values hb _ => exact ⟨hb, nofun⟩
    | stopped hb hr =>
      refine ⟨hb, fun fault h => ?_⟩
      cases h
      exact hr
  · exact ⟨hs.becomes_self, nofun⟩

/-- **Instances are sound.** Whatever becomes of an instance of a valid module, the store is sound
then, and nothing has got stuck. -/
theorem Sound.instantiate (hs : s.Sound) (hv : m.isValid)
    (hi : List.Forall₂ (fun e t => s.externType? e = some t) imports found)
    (hf : m.SatisfiedBy found) :
    s.Becomes (s.instantiate m imports).1 ∧
      ∀ fault, (s.instantiate m imports).2 = .error fault → fault.NotStuck := by
  obtain ⟨ha, i, hinst, hm⟩ := hs.allocate hv hi hf
  unfold Store.instantiate
  have he := ha.sound.copyElements (s.allocate m imports).2 m.elements.zipIdx
  dsimp only
  split
  · rename_i h
    rw [h] at he
    refine ⟨ha.trans he, fun fault h => ?_⟩
    cases h
    exact nofun
  · rename_i s₁ h
    rw [h] at he
    have hd := he.sound.copyData (s.allocate m imports).2 m.data.zipIdx
    split
    · rename_i h
      rw [show copied (.ok s₁) = s₁ from rfl, h] at hd
      refine ⟨(ha.trans he).trans hd, fun fault h => ?_⟩
      cases h
      exact nofun
    · rename_i s₂ h
      rw [show copied (.ok s₁) = s₁ from rfl, h] at hd
      have hb := he.trans hd
      obtain ⟨j, hj, hjm⟩ := hb.grown.modules _ i hinst
      obtain ⟨hstart, hfault⟩ := Sound.start hb.sound hv hj (hjm.trans hm)
      exact ⟨(ha.trans hb).trans hstart, hfault⟩

end Store

/-! ## Linking -/

namespace Linker

variable {l l' : Linker} {m : Module}

/-- What imports were resolved to satisfies them. -/
theorem resolve_eq_ok {imports : List Extern} (h : l.resolve m = .ok imports) :
    ∃ found, List.Forall₂ (fun e t => l.store.externType? e = some t) imports found ∧
      m.SatisfiedBy found := by
  rw [resolve_eq] at h
  obtain ⟨imports', hm, hall⟩ | ⟨fault, hm, -⟩ := mapM_cases l.find m.imports
  · rw [hm] at h
    obtain ⟨hc, hfits⟩ | ⟨fault, hc, -⟩ := forIn_cases
      (fun x => (l.check_cases m x).imp id fun h => ⟨_, h⟩) (m.imports.zip imports')
    · simp only [checkAll, hc, Except.ok.injEq] at h
      subst h
      have hfound : List.Forall₂ (fun i e => ∃ t asked, l.store.externType? e = some t ∧
          m.importType? i = some asked ∧ t.fits asked) m.imports imports' :=
        List.forall₂_iff_zip.2 ⟨hall.length_eq, fun hz => check_eq_ok.1 (hfits _ hz)⟩
      refine ⟨imports'.map fun e => (l.store.externType? e).getD default, ?_, ?_⟩
      · rw [List.forall₂_map_right_iff, List.forall₂_same]
        intro e he
        obtain ⟨i, -, t, asked, ht, -⟩ := exists_mem_zip hfound.flip he
        rw [ht, Option.getD_some]
      · rw [Module.SatisfiedBy, List.forall₂_map_right_iff]
        refine hfound.imp fun i e hie => ?_
        obtain ⟨t, asked, ht, ha, hf⟩ := hie
        exact ⟨asked, ha, by rwa [ht, Option.getD_some]⟩
    · simp [checkAll, hc] at h
  · simp [hm] at h

theorem resolve_error_ofImport {fault : LinkFault} (h : l.resolve m = .error fault) :
    fault.OfImport := by
  rw [resolve_eq] at h
  obtain ⟨imports, hm, -⟩ | ⟨fault', hm, i, -, hi⟩ := mapM_cases l.find m.imports
  · rw [hm] at h
    obtain ⟨hc, -⟩ | ⟨fault', hc, x, -, hx⟩ := forIn_cases
      (fun x => (l.check_cases m x).imp id fun h => ⟨_, h⟩) (m.imports.zip imports)
    · simp [checkAll, hc] at h
    · simp only [checkAll, hc, Except.error.injEq] at h
      subst h
      obtain hok | herror := l.check_cases m x
      · cases hok.symm.trans hx
      · cases herror.symm.trans hx
        trivial
  · simp only [hm, Except.error.injEq] at h
    subst h
    rw [find] at hi
    split at hi
    · cases hi
    · cases hi
      trivial

/-- A linker makes an instance in a sound store, and none gets stuck. -/
theorem instantiate_sound (hs : l.store.Sound) (hv : m.isValid) :
    l.store.Becomes (l.instantiate m).1 ∧
      ∀ fault, (l.instantiate m).2 = .error fault → fault.NotStuck := by
  unfold instantiate
  split
  · rename_i fault hr
    refine ⟨hs.becomes_self, fun fault h => ?_⟩
    cases h
    exact (resolve_error_ofImport hr).notStuck
  · rename_i imports hr
    obtain ⟨found, hi, hf⟩ := resolve_eq_ok hr
    exact hs.instantiate hv hi hf

theorem defineExports_store {module : String} {exports : List (String × Extern)}
    (h : l.defineExports module exports = .ok l') : l'.store = l.store := by
  induction exports generalizing l with
  | nil =>
    cases h
    rfl
  | cons d rest ih =>
    obtain ⟨name, e⟩ := d
    simp only [defineExports, define, bind, Except.bind] at h
    split at h
    · cases h
    · rename_i next hd
      split at hd
      · cases hd
      · cases hd
        have hstore := ih h
        exact hstore

theorem defineExports_error {module : String} {exports : List (String × Extern)} {fault : LinkFault}
    (h : l.defineExports module exports = .error fault) : fault.OfImport := by
  induction exports generalizing l with
  | nil => cases h
  | cons d rest ih =>
    obtain ⟨name, e⟩ := d
    simp only [defineExports, define, bind, Except.bind] at h
    split at h
    · rename_i hd
      split at hd
      · cases hd
        cases h
        trivial
      · cases hd
    · rename_i next hd
      split at hd
      · cases hd
      · cases hd
        exact ih h

/-- A reference is added to a sound store, which stays sound, or it is not added and nothing has got
stuck. -/
theorem addReference_sound (hs : l.store.Sound) {r : Compiled} (hv : r.module.isValid) :
    (∀ l', l.addReference r = .ok l' → l'.store.Sound) ∧
      ∀ s fault, l.addReference r = .error (s, fault) → fault.NotStuck := by
  obtain ⟨hb, hfault⟩ := instantiate_sound hs hv
  unfold addReference
  cases hi : l.instantiate r.module with
  | mk s made =>
    rw [hi] at hb hfault
    cases made with
    | error fault =>
      refine ⟨nofun, fun s' fault' h => ?_⟩
      cases h
      exact hfault fault rfl
    | ok owner =>
      dsimp only
      refine ⟨fun l' h => ?_, fun s' fault h => ?_⟩
      · split at h
        · rename_i next hd
          cases h
          rw [defineExports_store hd]
          exact hb.sound
        · cases h
      · split at h
        · cases h
        · rename_i hd
          cases h
          exact (defineExports_error hd).notStuck

/-- The functions of the host have the types that they are offered at. -/
theorem hasType_of_mem {f : String × HostFunction × FuncType}
    (h : f ∈ HostFunction.own ++ HostFunction.system) : f.2.1.hasType f.2.2 := by
  revert f
  decide

theorem addFunction_sound (hs : l.store.Sound) (module name : String) {f : HostFunction}
    {t : FuncType} (hf : f.hasType t) : (l.addFunction module name f t).store.Sound := by
  have hext : l.store.Extends (l.addFunction module name f t).store :=
    { Store.Grows.refl l.store with
      functions := .push (fun _ => rfl) _ _
      modules := .refl Instance.SameModule.refl _ }
  refine (hs.becomes hext (fun g hg => ?_) (fun _ => .inl) (fun _ => .inl) (fun _ => .inl)).sound
  rcases Array.mem_push.1 hg with hg | rfl
  · exact .inl hg
  · exact .inr (.host hf)

theorem addFunctions_sound (hs : l.store.Sound) (module : String)
    {fs : List (String × HostFunction × FuncType)} (hf : ∀ f ∈ fs, f.2.1.hasType f.2.2) :
    (fs.foldl (fun l (name, f, t) => l.addFunction module name f t) l).store.Sound := by
  induction fs generalizing l with
  | nil => exact hs
  | cons f rest ih =>
    have hs' := addFunction_sound hs module f.1 (hf f List.mem_cons_self)
    exact ih hs' fun g hg => hf g (List.mem_cons_of_mem _ hg)

/-- Linking begins with a sound store. -/
theorem ofHost_sound (host : Host) : (ofHost host).store.Sound := by
  have hempty : Store.Sound { host } := by
    constructor <;> simp
  refine addFunctions_sound (addFunctions_sound hempty _ fun f hf => ?_) _ fun f hf => ?_
  · exact hasType_of_mem (List.mem_append_right _ hf)
  · exact hasType_of_mem (List.mem_append_left _ hf)

end Linker

/-! ## Linked modules -/

/-- The failure is not that code has got stuck. -/
def InvokeError.NotStuck : InvokeError → Prop
  | .link _ fault | .instantiate _ fault => fault.NotStuck
  | .failed _ reason _ => reason ≠ .stuck
  | .noEntry _ | .unexpectedSignature _ | .noExport _ _ | .noHandle _ => True

namespace Compiled

variable {c : Compiled} {references : List Compiled}

theorem linkReferences_sound {l : Linker} (hs : l.store.Sound)
    (hv : ∀ r ∈ references, r.module.isValid) :
    (∀ l', c.linkReferences l references = .ok l' → l'.store.Sound) ∧
      ∀ s e, c.linkReferences l references = .error (s, e) → e.NotStuck := by
  induction references generalizing l with
  | nil =>
    refine ⟨fun l' h => ?_, nofun⟩
    cases h
    exact hs
  | cons r rest ih =>
    have hrest := fun r hr => hv r (List.mem_cons_of_mem _ hr)
    by_cases hr : c.importsFrom r.name
    · obtain ⟨hok, herror⟩ := Linker.addReference_sound hs (hv r List.mem_cons_self)
      rw [linkReferences_cons hr]
      cases ha : l.addReference r with
      | ok next => exact ih (hok next ha) hrest
      | error x =>
        obtain ⟨s, fault⟩ := x
        refine ⟨nofun, fun s' e h => ?_⟩
        cases h
        exact herror s fault ha
    · rw [linkReferences, if_neg hr]
      exact ih hs hrest

/-- **Linked modules are sound.** An instance of a valid module that was linked with valid
references stands in a sound store; where there is none, nothing has got stuck. -/
theorem instantiate_sound (hc : c.module.isValid) (hv : ∀ r ∈ references, r.module.isValid)
    (host : Host) :
    (∀ s owner, c.instantiate host references = (s, .ok owner) → s.Sound) ∧
      ∀ s e, c.instantiate host references = (s, .error e) → e.NotStuck := by
  obtain ⟨hok, herror⟩ := linkReferences_sound (c := c) (Linker.ofHost_sound host) hv
  unfold instantiate
  cases hl : c.linkReferences (.ofHost host) references with
  | error x =>
    obtain ⟨s, e⟩ := x
    refine ⟨nofun, fun s' e' h => ?_⟩
    cases h
    exact herror s e hl
  | ok l =>
    obtain ⟨hb, hfault⟩ := Linker.instantiate_sound (hok l hl) hc
    dsimp only
    cases hi : l.instantiate c.module with
    | mk s made =>
      rw [hi] at hb hfault
      cases made with
      | ok owner =>
        refine ⟨fun s' owner' h => ?_, nofun⟩
        cases h
        exact hb.sound
      | error fault =>
        refine ⟨nofun, fun s' e h => ?_⟩
        cases h
        exact hfault fault rfl

end Compiled

end ScriptHost.Wasm

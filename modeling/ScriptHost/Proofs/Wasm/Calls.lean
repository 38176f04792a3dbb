import ScriptHost.Proofs.Shape.Commands
import ScriptHost.Proofs.Wasm.Imports
import ScriptHost.Proofs.Wasm.Instantiation

/-!
# Calling what was found by shape

A method of a module's shape is one of its exported functions (`Module.exists_function_of_method`).
An instance exports each function with the type that the module declares for it
(`Linker.exports_of_instantiate`), which the signature of the method tells
(`Compiled.exports_method`), and goes on to do so whatever code runs (`Store.Exports.grows`). In a
sound store nothing that is called at its type gets stuck (`Store.Sound.call_exported`). So a
command or an event handler that was found can be called, and what is left to fail is linking, or
code that stops for a reason of its own (`Compiled.found_can_be_called`).
-/

namespace ScriptHost

namespace Wasm

/-! ## The types of methods -/

/-- The type of values that a scalar stands for. -/
def valType : Scalar → ValType
  | .i32 => .i32
  | .i64 => .i64
  | .f32 => .f32
  | .f64 => .f64

/-- Types that can be shown are told by their scalars. -/
theorem map_valType_scalars {vs : List ValType}
    (h : ∀ v ∈ vs, v ∈ [ValType.i32, .i64, .f32, .f64]) :
    (vs.filterMap ValType.scalar?).map valType = vs := by
  induction vs with
  | nil => rfl
  | cons v vs ih =>
    have hv : ∃ s, v.scalar? = some s ∧ valType s = v := by
      have hmem := h v List.mem_cons_self
      cases v with
      | i32 => exact ⟨.i32, rfl, rfl⟩
      | i64 => exact ⟨.i64, rfl, rfl⟩
      | f32 => exact ⟨.f32, rfl, rfl⟩
      | f64 => exact ⟨.f64, rfl, rfl⟩
      | v128 | funcref => simp at hmem
    obtain ⟨s, hs, hvs⟩ := hv
    rw [List.filterMap_cons_some hs, List.map_cons, hvs,
      ih fun w hw => h w (List.mem_cons_of_mem _ hw)]

namespace Module

variable {m : Module} {name : String} {names : List Binary.LocalName}

/-- Every method is an exported function. -/
theorem exists_function_of_method {type : TypeShape} (ht : type ∈ (m.shape name names).types)
    {method : Method} (hm : method ∈ type.methods) :
    ∃ e ∈ m.exportedFunctions, e.2.Shown ∧
      method = shownMethod names (assigned name e).2 e.1 e.2 := by
  rw [types_shape, List.mem_map] at ht
  obtain ⟨typeName, hn, rfl⟩ := ht
  have hshown : ∀ e ∈ m.functionsOf name typeName, e.2.Shown :=
    of_decide_eq_true (List.mem_filter.1 hn).2
  obtain ⟨e, he, rfl⟩ := List.mem_map.1 hm
  exact ⟨e, (List.mem_filter.1 he).1, hshown e he, rfl⟩

end Module

/-! ## What an instance exports -/

namespace Store

/-- An instance exports a function of the type by the name. -/
def Exports (s : Store) (owner : Nat) (name : String) (type : FuncType) : Prop :=
  ∃ address, s.exportedFunction? owner name = some (address, type)

variable {s s' : Store} {owner : Nat} {name : String} {type : FuncType}

theorem exportedFunction?_of_externType {i : Instance} {e : Extern}
    (hi : s.instances[owner]? = some i) (he : i.exports.lookup name = some e)
    (ht : s.externType? e = some (.func type)) :
    s.exportedFunction? owner name = some (e.address, type) := by
  have hk : e.kind = .func := (kind_of_externType ht).symm
  simp only [externType?, hk, Option.map_eq_some_iff, ExternType.func.injEq] at ht
  obtain ⟨f, hf, rfl⟩ := ht
  simp [exportedFunction?, hi, he, hk, hf]

/-- Code that runs takes no export away. -/
theorem Grows.exportedFunction? {address : Nat} (h : s.Grows s')
    (he : s.exportedFunction? owner name = some (address, type)) :
    s'.exportedFunction? owner name = some (address, type) := by
  simp only [Store.exportedFunction?, bind, Option.bind_eq_some_iff] at he
  obtain ⟨i, hi, e, hl, he⟩ := he
  split at he
  · rename_i hk
    obtain ⟨f, hf, he⟩ := Option.bind_eq_some_iff.1 he
    obtain ⟨rfl, rfl⟩ := Prod.mk.inj (Option.some.inj he)
    obtain ⟨j, hj, hexports⟩ := h.instances owner i hi
    obtain ⟨g, hg, rfl⟩ := h.functions e.address f hf
    replace hexports : j.exports = i.exports := hexports
    simp [Store.exportedFunction?, hj, hexports, hl, hk, hg]
  · cases he

/-- An exported function that is called at its type is safe. -/
theorem Sound.call_exported (hs : s.Sound) {address : Nat} {args : List Value}
    (he : s.exportedFunction? owner name = some (address, type)) (ha : s.Typed args type.params) :
    (s.call address args).Safe s type.results := by
  simp only [exportedFunction?, bind, Option.bind_eq_some_iff] at he
  obtain ⟨i, -, e, -, he⟩ := he
  split at he
  · obtain ⟨f, hf, he⟩ := Option.bind_eq_some_iff.1 he
    obtain ⟨rfl, rfl⟩ := Prod.mk.inj (Option.some.inj he)
    exact hs.call hf ha
  · cases he

theorem Exports.grows (h : s.Exports owner name type) (hg : s.Grows s') :
    s'.Exports owner name type := by
  obtain ⟨address, he⟩ := h
  exact ⟨address, hg.exportedFunction? he⟩

end Store

namespace Module

variable {m : Module} {found : List ExternType}

/-- An exported function has the type that the module declares for it. -/
theorem exportedType_function (h : m.SatisfiedBy found) {e : Export} {t : FuncType}
    (hk : e.kind = .func) (ht : m.functionType? e.index = some t) :
    m.exportedType found e = .func t := by
  simp only [functionType?, bind, Option.bind_eq_some_iff] at ht
  obtain ⟨n, hn, ht⟩ := ht
  simp [exportedType, hk, typesOf_func h, hn, ht]

theorem mem_exportedFunctions {e : Export} {t : FuncType} :
    (e, t) ∈ m.exportedFunctions ↔
      e ∈ m.exports ∧ e.kind = .func ∧ m.functionType? e.index = some t := by
  rw [exportedFunctions, List.mem_filterMap]
  constructor
  · rintro ⟨x, hx, hg⟩
    split at hg
    · rename_i hk
      obtain ⟨u, hu, he⟩ := Option.map_eq_some_iff.1 hg
      cases he
      exact ⟨hx, hk, hu⟩
    · cases hg
  · rintro ⟨he, hk, ht⟩
    exact ⟨e, he, by rw [if_pos hk, ht, Option.map_some]⟩

end Module

/-- Among things of different names, one is found by its name. -/
theorem lookup_of_forall₂ {α β : Type} {key : α → String} {R : α → β → Prop} {xs : List α}
    {ys : List (String × β)} (h : List.Forall₂ (fun x y => y.1 = key x ∧ R x y.2) xs ys)
    (hn : (xs.map key).Nodup) {x : α} (hx : x ∈ xs) : ∃ b, ys.lookup (key x) = some b ∧ R x b := by
  induction h with
  | nil => cases hx
  | @cons z y xs ys hd _ ih =>
    obtain ⟨name, b⟩ := y
    obtain ⟨rfl, hr⟩ := hd
    rw [List.map_cons, List.nodup_cons] at hn
    rcases List.mem_cons.1 hx with rfl | hx
    · exact ⟨b, List.lookup_cons_self, hr⟩
    · have hne : (key x == key z) = false := by
        rw [beq_eq_false_iff_ne]
        intro he
        exact hn.1 (he ▸ List.mem_map_of_mem hx)
      rw [List.lookup_cons, hne]
      exact ih hn.2 hx

namespace Linker

variable {l : Linker} {m : Module}

/-- An instance that is made exports the functions of its module, with their types. -/
theorem exports_of_instantiate (hv : m.isValid) {s : Store} {owner : Nat}
    (h : l.instantiate m = (s, .ok owner)) {e : Export × FuncType}
    (he : e ∈ m.exportedFunctions) : s.Exports owner e.1.name e.2 := by
  unfold instantiate at h
  split at h
  · cases h
  · rename_i imports hr
    obtain ⟨found, hi, hf⟩ := resolve_eq_ok hr
    have hmade : (l.store.instantiate m imports).2 = .ok owner := congrArg Prod.snd h
    obtain ⟨i, hinst, hall⟩ := Store.instantiate_exports hv hi hf hmade
    obtain ⟨hmem, hk, ht⟩ := Module.mem_exportedFunctions.1 he
    obtain ⟨x, hx, t, hxt, hg⟩ := lookup_of_forall₂
      (R := fun e x => ∃ t, (l.store.instantiate m imports).1.externType? x = some t ∧
        (m.exportedType found e).Grows t) hall (Module.nodup_exports hv) hmem
    rw [Module.exportedType_function hf hk ht] at hg
    cases hg
    rw [h] at hinst hxt
    exact ⟨_, Store.exportedFunction?_of_externType hinst hx hxt⟩

end Linker

/-! ## Invocations -/

end Wasm

theorem TypeShape.mem_of_signature (type : TypeShape) {name : String}
    {params results : List Scalar} {method : Method}
    (h : (type.method? name).filter (·.hasSignature params results) = some method) :
    method ∈ type.methods ∧ method.paramTypes = params ∧ method.results = results := by
  obtain ⟨hm, hs⟩ := Option.filter_eq_some_iff.1 h
  rw [Method.hasSignature, Bool.and_eq_true, beq_iff_eq, beq_iff_eq] at hs
  exact ⟨List.mem_of_find?_eq_some hm, hs⟩

namespace Wasm

namespace Compiled

/-- What is left to fail in an invocation that calls exports of these names: no instance can be
made, or such an export, called with arguments of its own type, traps, exits or runs out of steps.
Nothing gets stuck. -/
inductive Fails (c : Compiled) (host : Host) (references : List Compiled) (names : List String) :
    InvokeError → Prop
  | link {s reference fault}
      (h : c.instantiate host references = (s, .error (.link reference fault)))
      (hf : fault.NotStuck) : Fails c host references names (.link reference fault)
  | instantiate {s fault}
      (h : c.instantiate host references = (s, .error (.instantiate c.name fault)))
      (hf : fault.NotStuck) : Fails c host references names (.instantiate c.name fault)
  | stopped {s s' : Store} {owner address : Nat} {name : String} {type : FuncType}
      {args : List Value} {reason : Stop} {inCode : Bool} (called : name ∈ names)
      (exported : s.exportedFunction? owner name = some (address, type))
      (typed : s.Typed args type.params) (h : s.call address args = .stopped s' reason inCode)
      (hr : reason ≠ .stuck) : Fails c host references names (.failed name reason inCode)

variable {name : String} {bytes : List UInt8} {c : Compiled} {host : Host}
  {references : List Compiled} {names : List String}

theorem fails_of_instantiate {s : Store} {e : InvokeError} (he : e.NotStuck)
    (h : c.instantiate host references = (s, .error e)) : c.Fails host references names e := by
  have hinstantiate := h
  unfold Compiled.instantiate at h
  split at h
  · rename_i s' e' hl
    cases h
    rw [linkReferences_linked] at hl
    obtain ⟨-, r, -, -, fault, -, -, -, rfl⟩ :=
      linkReferences_error (fun r hr => (mem_linked.1 hr).2) hl
    exact .link hinstantiate he
  · split at h
    · cases h
    · cases h
      exact .instantiate hinstantiate he

/-- A call of an export at its own type fails only if the code does. -/
theorem fails_of_callExport {s s' : Store} (hs : s.Sound) {owner : Nat} {called : String}
    {type : FuncType} {args : List Value} (hcalled : called ∈ names)
    (hexport : s.Exports owner called type) (hargs : s.Typed args type.params) {e : InvokeError}
    (h : s.callExport owner called type args = (s', .error e)) :
    c.Fails host references names e := by
  obtain ⟨address, hf⟩ := hexport
  have hsafe := hs.call_exported hf hargs
  simp only [Store.callExport, hf, if_true] at h
  split at h
  · cases h
  · rename_i hcall
    cases h
    rw [hcall] at hsafe
    exact .stopped hcalled hf hargs hcall hsafe.reason_ne_stuck

theorem callExport_becomes {s s' : Store} (hs : s.Sound) {owner : Nat} {called : String}
    {type : FuncType} {args results : List Value} (hexport : s.Exports owner called type)
    (hargs : s.Typed args type.params)
    (h : s.callExport owner called type args = (s', .ok results)) : s.Becomes s' := by
  obtain ⟨address, hf⟩ := hexport
  have hsafe := hs.call_exported hf hargs
  simp only [Store.callExport, hf, if_true] at h
  split at h
  · rename_i hcall
    cases h
    rw [hcall] at hsafe
    cases hsafe with
    | values hb _ => exact hb
  · cases h

theorem shape_of_compile (h : compile? name bytes = some c) :
    ∃ localNames, c.shape = c.module.shape name localNames := by
  simp only [compile?, bind, Option.bind_eq_some_iff] at h
  obtain ⟨m, -, h⟩ := h
  split at h
  · rw [← Option.some.inj h]
    exact ⟨_, rfl⟩
  · cases h

/-- A method of the shape is exported with the type that its signature tells. -/
theorem exports_method (hv : c.module.isValid) {localNames : List Binary.LocalName}
    (hc : c.shape = c.module.shape name localNames) {type : TypeShape} (ht : type ∈ c.shape.types)
    {method : Method} (hm : method ∈ type.methods) {s : Store} {owner : Nat}
    (h : c.instantiate host references = (s, .ok owner)) :
    s.Exports owner method.exportName
      ⟨method.paramTypes.map valType, method.results.map valType⟩ := by
  rw [hc] at ht
  obtain ⟨⟨e, t⟩, he, hs, rfl⟩ := Module.exists_function_of_method ht hm
  have hp := map_valType_scalars fun v hv => hs v (List.mem_append_left _ hv)
  have hr := map_valType_scalars fun v hv => hs v (List.mem_append_right _ hv)
  unfold Compiled.instantiate at h
  split at h
  · cases h
  · rename_i l _
    split at h
    · rename_i hl
      cases h
      have := Linker.exports_of_instantiate hv hl he
      simpa only [shownMethod, hp, hr] using this
    · cases h

/-! ## Commands -/

/-- The exports that running a command calls. -/
def commandExports (command : TypeShape) : List String :=
  (command.constructor?.toList ++ command.entry?.toList).map Method.exportName

/-- If the methods of a command are exported, running it fails only where its code does. -/
theorem fails_of_invokeCommand (hc : c.module.isValid) (hr : ∀ r ∈ references, r.module.isValid)
    {command : TypeShape} {entry : Method} (hentry : command.entry? = some entry)
    (hexports : ∀ method ∈ command.methods, ∀ s owner,
      c.instantiate host references = (s, .ok owner) → s.Exports owner method.exportName
        ⟨method.paramTypes.map valType, method.results.map valType⟩)
    {e : InvokeError} (h : (c.invokeCommand command host references).2 = .error e) :
    c.Fails host references (commandExports command) e := by
  obtain ⟨hsound, hfault⟩ := instantiate_sound hc hr host
  unfold invokeCommand at h
  rw [hentry] at h
  cases hi : c.instantiate host references with
  | mk s made =>
    cases made with
    | error e' =>
      simp only [hi, Except.error.injEq] at h
      subst h
      exact fails_of_instantiate (hfault s e' hi) hi
    | ok owner =>
      have hs := hsound s owner hi
      have hcallable {name : String} {params results : List Scalar} {method : Method}
          (hm : (command.method? name).filter (·.hasSignature params results) = some method) :
          s.Exports owner method.exportName ⟨params.map valType, results.map valType⟩ := by
        obtain ⟨hmem, rfl, rfl⟩ := command.mem_of_signature hm
        exact hexports method hmem s owner hi
      -- whatever sound store the constructor leaves, the entry is called there
      have hrun : ∀ s' : Store, s.Becomes s' → ∀ this, ∀ s'' e',
          s'.callExport owner entry.exportName ⟨[.i32], [.i32]⟩ [.i32 this] = (s'', .error e') →
            c.Fails host references (commandExports command) e' := by
        intro s' hb this s'' e' hcall
        have hexport := (hcallable hentry).grows hb.grown.toGrows
        exact fails_of_callExport hb.sound (by simp [commandExports, hentry]) hexport
          (.cons (.i32 this) .nil) hcall
      simp only [hi] at h
      cases hnew : command.constructor? with
      | none =>
        simp only [hnew] at h
        split at h
        · rename_i hcall
          cases h
          exact hrun s hs.becomes_self _ _ _ hcall
        · cases h
      | some new =>
        simp only [hnew] at h
        cases hmade : s.callExport owner new.exportName ⟨[], [.i32]⟩ [] with
        | mk s' this =>
          simp only [hmade] at h
          cases this with
          | error e' =>
            cases h
            have hcalled : new.exportName ∈ commandExports command := by
              simp [commandExports, hnew]
            exact fails_of_callExport hs hcalled (hcallable hnew) .nil hmade
          | ok this =>
            dsimp only at h
            split at h
            · rename_i hcall
              cases h
              exact hrun s' (callExport_becomes hs (hcallable hnew) .nil hmade) _ _ _ hcall
            · cases h

theorem mem_of_findCommand {required : Option String} {command : TypeShape}
    (h : c.shape.findCommand? required = some command) :
    command ∈ c.shape.types ∧ ∃ entry, command.entry? = some entry := by
  have hmem := List.mem_of_find?_eq_some h
  have hcommand : command.isCommand := List.find?_some h
  exact ⟨(List.mem_filter.1 hmem).1, Option.isSome_iff_exists.1 hcommand⟩

/-! ## Event handlers -/

/-- An event handler takes two integers. -/
theorem paramTypes_of_isEventHandler {method : Method} (h : method.isEventHandler) :
    ∃ sender args, method.paramTypes = [sender, args] ∧ sender.isInteger ∧ args.isInteger := by
  rw [Method.isEventHandler, Bool.and_eq_true, Bool.and_eq_true, beq_iff_eq] at h
  obtain ⟨⟨-, hlength⟩, hall⟩ := h
  obtain ⟨sender, args, htypes⟩ := List.length_eq_two.1 hlength
  rw [htypes] at hall
  simp only [List.all_cons, List.all_nil, Bool.and_true, Bool.and_eq_true] at hall
  exact ⟨sender, args, htypes, hall.1, hall.2⟩

/-- The handle is carried at an integer type. -/
theorem handleValue_of_isInteger {a : Scalar} (h : a.isInteger) (handle : Nat)
    (hh : handle < UInt32.size) :
    ∃ v, handleValue (valType a) handle = .ok v ∧ v.type = valType a ∧
      (v.type = .i32 ∨ v.type = .i64) ∧ v.bits = handle := by
  cases a with
  | i32 => exact ⟨_, rfl, rfl, .inl rfl, UInt32.toNat_ofNat_of_lt' hh⟩
  | i64 => exact ⟨_, rfl, rfl, .inr rfl, UInt64.toNat_ofNat_of_lt' (Nat.lt_trans hh (by decide))⟩
  | f32 | f64 => cases h

/-- What the invocation of an event handler comes to, from how the call of its export has ended. -/
def handlerOutcome (exportName : String) : Ended → Host × Except InvokeError Unit
  | .values s _ => (s.host, .ok ())
  | .stopped s reason inCode => (s.host, .error (.failed exportName reason inCode))

/-- An event handler that is exported is called with the two handles. -/
theorem invokeEventHandler_eq {method : Method} (hm : method.isEventHandler) {s : Store}
    {owner : Nat} (hi : c.instantiate host references = (s, .ok owner))
    (hexport : s.Exports owner method.exportName
      ⟨method.paramTypes.map valType, method.results.map valType⟩) :
    ∃ address results sender args,
      s.exportedFunction? owner method.exportName =
        some (address, ⟨[sender.type, args.type], results⟩) ∧
      (sender.type = .i32 ∨ sender.type = .i64) ∧ sender.bits = 1 ∧
      (args.type = .i32 ∨ args.type = .i64) ∧ args.bits = 2 ∧
      c.invokeEventHandler method host references =
        handlerOutcome method.exportName (s.call address [sender, args]) := by
  obtain ⟨address, hf⟩ := hexport
  obtain ⟨a, b, htypes, ha, hb⟩ := paramTypes_of_isEventHandler hm
  obtain ⟨sender, hsender, hst, hsi, hsb⟩ := handleValue_of_isInteger ha 1 (by decide)
  obtain ⟨args, hargs, hat, hai, hab⟩ := handleValue_of_isInteger hb 2 (by decide)
  rw [htypes, List.map_cons, List.map_cons, List.map_nil] at hf
  refine ⟨address, _, sender, args, hst ▸ hat ▸ hf, hsi, hsb, hai, hab, ?_⟩
  unfold invokeEventHandler
  simp only [hi, hf, List.zip_cons_cons, List.zip_nil_left, List.mapM_cons, List.mapM_nil, hsender,
    hargs, bind, Except.bind, pure, Except.pure]
  cases s.call address [sender, args] <;> rfl

theorem fails_of_invokeEventHandler (hc : c.module.isValid)
    (hr : ∀ r ∈ references, r.module.isValid) {method : Method} (hm : method.isEventHandler)
    (hexports : ∀ s owner, c.instantiate host references = (s, .ok owner) →
      s.Exports owner method.exportName
        ⟨method.paramTypes.map valType, method.results.map valType⟩)
    {e : InvokeError} (h : (c.invokeEventHandler method host references).2 = .error e) :
    c.Fails host references [method.exportName] e := by
  obtain ⟨hsound, hfault⟩ := instantiate_sound hc hr host
  cases hi : c.instantiate host references with
  | mk s made =>
    cases made with
    | error e' =>
      simp only [invokeEventHandler, hi, Except.error.injEq] at h
      subst h
      exact fails_of_instantiate (hfault s e' hi) hi
    | ok owner =>
      obtain ⟨address, results, sender, args, hf, hsender, -, hargs, -, heq⟩ :=
        invokeEventHandler_eq hm hi (hexports s owner hi)
      have htyped : s.Typed [sender, args] [sender.type, args.type] :=
        .cons (.of_type s rfl (by rcases hsender with h | h <;> simp [h]))
          (.cons (.of_type s rfl (by rcases hargs with h | h <;> simp [h])) .nil)
      have hsafe := (hsound s owner hi).call_exported hf htyped
      rw [heq] at h
      cases hcall : s.call address [sender, args] with
      | values s' results =>
        rw [hcall] at h
        cases h
      | stopped s' reason inCode =>
        rw [hcall] at h hsafe
        cases h
        exact .stopped (List.mem_singleton.2 rfl) hf htyped hcall hsafe.reason_ne_stuck

theorem mem_of_findEventHandler {type : TypeShape} {method : Method}
    (h : c.shape.findEventHandler? = some (type, method)) :
    type ∈ c.shape.types ∧ method ∈ type.methods ∧ method.isEventHandler := by
  obtain ⟨t, ht, hfind⟩ := List.exists_of_findSome?_eq_some h
  obtain ⟨m, hm, heq⟩ := Option.map_eq_some_iff.1 hfind
  obtain ⟨rfl, rfl⟩ := Prod.mk.inj heq
  exact ⟨ht, List.mem_of_find?_eq_some hm, List.find?_some hm⟩

/-! ## What was found can be called -/

/-- What is found by shape is exported at the type that it is called at, and its invocation fails
only where an instance cannot be made or the code that is called stops. -/
structure Callable (c : Compiled) (host : Host) (references : List Compiled) : Prop where
  command (required : Option String) (command : TypeShape)
    (h : c.shape.findCommand? required = some command) :
    (∃ entry, command.entry? = some entry ∧
      ∀ s owner, c.instantiate host references = (s, .ok owner) →
        s.Exports owner entry.exportName ⟨[.i32], [.i32]⟩ ∧
        ∀ new ∈ command.constructor?, s.Exports owner new.exportName ⟨[], [.i32]⟩) ∧
    ∀ e, (c.invokeCommand command host references).2 = .error e →
      c.Fails host references (commandExports command) e
  eventHandler (type : TypeShape) (method : Method)
    (h : c.shape.findEventHandler? = some (type, method)) :
    (∀ s owner, c.instantiate host references = (s, .ok owner) →
      ∃ address results sender args,
        s.exportedFunction? owner method.exportName =
          some (address, ⟨[sender.type, args.type], results⟩) ∧
        (sender.type = .i32 ∨ sender.type = .i64) ∧ sender.bits = 1 ∧
        (args.type = .i32 ∨ args.type = .i64) ∧ args.bits = 2 ∧
        c.invokeEventHandler method host references =
          handlerOutcome method.exportName (s.call address [sender, args])) ∧
    ∀ e, (c.invokeEventHandler method host references).2 = .error e →
      c.Fails host references [method.exportName] e

/-- **What was found can be called.** Whatever a compiled module shows as a command or as an event
handler can be called in each of its instances. -/
theorem found_can_be_called (h : compile? name bytes = some c) (host : Host)
    (hr : ∀ r ∈ references, r.module.isValid) : c.Callable host references := by
  have hv := isValid_of_compile h
  obtain ⟨localNames, hshape⟩ := shape_of_compile h
  constructor
  · intro required command hfound
    obtain ⟨htype, entry, hentry⟩ := mem_of_findCommand hfound
    have hexports : ∀ method ∈ command.methods, ∀ s owner,
        c.instantiate host references = (s, .ok owner) → s.Exports owner method.exportName
          ⟨method.paramTypes.map valType, method.results.map valType⟩ :=
      fun method hm s owner hi => exports_method hv hshape htype hm hi
    refine ⟨⟨entry, hentry, fun s owner hi => ⟨?_, fun new hnew => ?_⟩⟩,
      fun e he => fails_of_invokeCommand hv hr hentry hexports he⟩
    · obtain ⟨hm, hp, hr⟩ := command.mem_of_signature hentry
      have hexport := hexports entry hm s owner hi
      rwa [hp, hr] at hexport
    · obtain ⟨hm, hp, hr⟩ := command.mem_of_signature hnew
      have hexport := hexports new hm s owner hi
      rwa [hp, hr] at hexport
  · intro type method hfound
    obtain ⟨htype, hmem, hm⟩ := mem_of_findEventHandler hfound
    exact ⟨fun s owner hi => invokeEventHandler_eq hm hi (exports_method hv hshape htype hmem hi),
      fun e he => fails_of_invokeEventHandler hv hr hm
        (fun s owner hi => exports_method hv hshape htype hmem hi) he⟩

/-- A module that exports a function `f` without parameters. -/
def partBinary : List UInt8 := [
    0x00, 0x61, 0x73, 0x6d, 0x01, 0x00, 0x00, 0x00, 0x01, 0x05, 0x01, 0x60, 0x00, 0x01, 0x7f,
    0x03, 0x02, 0x01, 0x00, 0x07, 0x05, 0x01, 0x01, 0x66, 0x00, 0x00, 0x0a, 0x06, 0x01, 0x04,
    0x00, 0x41, 0x07, 0x0b]

/-- A module whose constructor calls a function `f` of a module `lib`, with the `execute` of a
command and a handler of 64 and 32 bits that traps. -/
def toolBinary : List UInt8 := [
    0x00, 0x61, 0x73, 0x6d, 0x01, 0x00, 0x00, 0x00, 0x01, 0x0f, 0x03, 0x60, 0x00, 0x01, 0x7f,
    0x60, 0x01, 0x7f, 0x01, 0x7f, 0x60, 0x02, 0x7e, 0x7f, 0x00, 0x02, 0x09, 0x01, 0x03, 0x6c,
    0x69, 0x62, 0x01, 0x66, 0x00, 0x00, 0x03, 0x04, 0x03, 0x00, 0x01, 0x02, 0x07, 0x2a, 0x03,
    0x08, 0x54, 0x6f, 0x6f, 0x6c, 0x2e, 0x6e, 0x65, 0x77, 0x00, 0x01, 0x0c, 0x54, 0x6f, 0x6f,
    0x6c, 0x2e, 0x65, 0x78, 0x65, 0x63, 0x75, 0x74, 0x65, 0x00, 0x02, 0x0c, 0x54, 0x6f, 0x6f,
    0x6c, 0x2e, 0x63, 0x6c, 0x69, 0x63, 0x6b, 0x65, 0x64, 0x00, 0x03, 0x0a, 0x0f, 0x03, 0x04,
    0x00, 0x10, 0x00, 0x0b, 0x04, 0x00, 0x20, 0x00, 0x0b, 0x03, 0x00, 0x00, 0x0b, 0x00, 0x15,
    0x04, 0x6e, 0x61, 0x6d, 0x65, 0x02, 0x0e, 0x01, 0x03, 0x02, 0x00, 0x06, 0x73, 0x65, 0x6e,
    0x64, 0x65, 0x72, 0x01, 0x01, 0x65]

theorem callable_toolBinary :
    ∃ c r, compile? "script" toolBinary = some c ∧ compile? "lib" partBinary = some r ∧
      (c.shape.findCommand? none).bind TypeShape.constructor? ≠ none ∧
      c.shape.findEventHandler? ≠ none ∧
      (c.instantiate {} [r]).2 = .ok 1 ∧ c.Callable {} [r] := by
  have h : ((compile? "script" toolBinary).bind fun c => (compile? "lib" partBinary).map fun r =>
      (((c.shape.findCommand? none).bind TypeShape.constructor?).isSome,
        c.shape.findEventHandler?.isSome, (c.instantiate {} [r]).2.toOption)) =
      some (true, true, some 1) := by
    decide +kernel
  obtain ⟨c, hc, heq⟩ := Option.bind_eq_some_iff.1 h
  obtain ⟨r, hr, heq⟩ := Option.map_eq_some_iff.1 heq
  simp only [Prod.mk.injEq] at heq
  obtain ⟨hcommand, hhandler, hmade⟩ := heq
  have hvalid : ∀ r' ∈ [r], r'.module.isValid := fun r' hr' =>
    List.mem_singleton.1 hr' ▸ isValid_of_compile hr
  refine ⟨c, r, hc, hr, ?_, ?_, ?_, found_can_be_called hc {} hvalid⟩
  · exact Option.isSome_iff_ne_none.1 hcommand
  · exact Option.isSome_iff_ne_none.1 hhandler
  · cases hi : (c.instantiate {} [r]).2 with
    | error e => simp [hi, Except.toOption] at hmade
    | ok owner => simpa [hi, Except.toOption] using hmade

end Compiled

end Wasm

end ScriptHost

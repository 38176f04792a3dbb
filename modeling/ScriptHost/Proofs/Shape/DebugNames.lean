import ScriptHost.Proofs.Registry.History

/-!
# Names for debugging

A binary may give names to its locals, in custom sections that are called `name`. They are advice
for tools, and may be missing or broken. Two binaries that differ in nothing but such sections hold
the same module, and its two shapes differ in nothing but the names of parameters
(`Compiled.discovery_of_sameButNames`). So the types that cannot be shown, the methods that run a
type or make an instance, and the command that is found are the same. Event handlers are told by the
names of their parameters, and so are methods that take an instance; what is found of these may
differ.
-/

namespace ScriptHost

/-! ## Shapes without the names of parameters -/

/-- The method with its parameters called after their numbers. -/
def Method.unnamed (m : Method) : Method :=
  { m with params := (List.range m.params.length).map fun i => "arg" ++ toString i }

def TypeShape.unnamed (t : TypeShape) : TypeShape :=
  { t with methods := t.methods.map Method.unnamed }

def Slot.unnamed : Slot → Slot
  | .loaded type => .loaded type.unnamed
  | .failed name reason => .failed name reason

/-- The shape with all parameters called after their numbers. -/
def ModuleShape.unnamed (s : ModuleShape) : ModuleShape :=
  { s with slots := s.slots.map Slot.unnamed }

@[simp]
theorem Slot.name_unnamed (s : Slot) : s.unnamed.name = s.name := by cases s <;> rfl

namespace TypeShape

@[simp]
theorem name_unnamed (t : TypeShape) : t.unnamed.name = t.name := rfl

theorem method?_unnamed (t : TypeShape) (name : String) :
    t.unnamed.method? name = (t.method? name).map Method.unnamed := by
  rw [method?, unnamed, List.find?_map]
  rfl

theorem entry?_unnamed (t : TypeShape) : t.unnamed.entry? = t.entry?.map Method.unnamed := by
  rw [TypeShape.entry?, method?_unnamed, Option.filter_map]
  rfl

theorem constructor?_unnamed (t : TypeShape) :
    t.unnamed.constructor? = t.constructor?.map Method.unnamed := by
  rw [constructor?, method?_unnamed, Option.filter_map]
  rfl

@[simp]
theorem isCommand_unnamed (t : TypeShape) : t.unnamed.isCommand = t.isCommand := by
  rw [isCommand, entry?_unnamed, Option.isSome_map, isCommand]

end TypeShape

namespace ModuleShape

theorem types_unnamed (s : ModuleShape) : s.unnamed.types = s.types.map TypeShape.unnamed := by
  rw [types, unnamed, List.filterMap_map, types, List.map_filterMap]
  refine congrArg (fun f => List.filterMap f s.slots) (funext fun slot => ?_)
  cases slot <;> rfl

theorem failures_unnamed (s : ModuleShape) : s.unnamed.failures = s.failures := by
  rw [failures, unnamed, List.filterMap_map, failures]
  refine congrArg (fun f => List.filterMap f s.slots) (funext fun slot => ?_)
  cases slot <;> rfl

theorem findCommand?_unnamed (s : ModuleShape) (required : Option String) :
    s.unnamed.findCommand? required = (s.findCommand? required).map TypeShape.unnamed := by
  rw [findCommand?, types_unnamed, List.filter_map, List.find?_map, findCommand?]
  simp only [Function.comp_def, TypeShape.name_unnamed, TypeShape.isCommand_unnamed]
  rfl

/-- What is found in both shapes is the same, up to the names of parameters: what could not be
shown and why, each type with the methods that run it and that make an instance, and the command,
whether or not one of some name is required. -/
structure SameDiscovery (s t : ModuleShape) : Prop where
  shape : s.unnamed = t.unnamed
  failures : s.failures = t.failures
  methods : s.types.map (fun u => (u.name, u.entry?.map Method.unnamed,
      u.constructor?.map Method.unnamed)) =
    t.types.map fun u => (u.name, u.entry?.map Method.unnamed, u.constructor?.map Method.unnamed)
  commands (required : Option String) : (s.findCommand? required).map TypeShape.unnamed =
    (t.findCommand? required).map TypeShape.unnamed

/-- All that discovery asks for can be told from the shape without names. -/
theorem sameDiscovery_of_unnamed {s t : ModuleShape} (h : s.unnamed = t.unnamed) :
    s.SameDiscovery t where
  shape := h
  failures := by rw [← failures_unnamed, h, failures_unnamed]
  methods := by
    have htypes := congrArg ModuleShape.types h
    rw [types_unnamed, types_unnamed] at htypes
    have hmethods := congrArg (List.map fun u => (u.name, u.entry?, u.constructor?)) htypes
    simpa only [List.map_map, Function.comp_def, TypeShape.entry?_unnamed,
      TypeShape.constructor?_unnamed, TypeShape.name_unnamed] using hmethods
  commands required := by rw [← findCommand?_unnamed, h, findCommand?_unnamed]

end ModuleShape

theorem addToSlot_unnamed (type : String) (found : Except String Method) (slots : List Slot) :
    (addToSlot type found slots).map Slot.unnamed =
      addToSlot type (found.map Method.unnamed) (slots.map Slot.unnamed) := by
  induction slots with
  | nil => cases found <;> rfl
  | cons slot rest ih =>
    rw [List.map_cons]
    unfold addToSlot
    rw [Slot.name_unnamed]
    split
    · cases slot with
      | failed name reason => rfl
      | loaded t =>
        cases found with
        | error reason => rfl
        | ok m => simp [Slot.unnamed, TypeShape.unnamed, Except.map]
    · rw [List.map_cons, ih]

namespace Wasm

theorem methodOf_unnamed (names : List Binary.LocalName) (method : String) (e : Export)
    (t : FuncType) : (methodOf names method e t).map Method.unnamed = methodOf [] method e t := by
  unfold methodOf
  split
  · rfl
  · simp [Except.map, Method.unnamed, Binary.nameOf?]

/-- Without the names of parameters, a shape is that of a module with no names. -/
theorem Module.unnamed_shape (m : Module) (name : String) (names : List Binary.LocalName) :
    (m.shape name names).unnamed = m.shape name [] := by
  rw [shape, shape, ModuleShape.unnamed, ModuleShape.mk.injEq]
  refine ⟨rfl, (List.foldl_hom (List.map Slot.unnamed) fun slots e => ?_).symm⟩
  rw [addToSlot_unnamed, methodOf_unnamed]

/-! ## Binaries without names -/

namespace Binary

/-- The section gives names: it is custom and called `name`. -/
def Section.givesNames (s : Section) : Bool :=
  s.id = 0 && match Reader.text s.content with
    | some ("name", _) => true
    | _ => false

/-- The sections of a binary but for those that give names. Any number of these may stand anywhere,
with anything in them. -/
def plainSections? (bytes : List UInt8) : Option (List Section) :=
  (sections? bytes).map (List.filter (!·.givesNames))

/-- The binaries have the same sections in the same order, but for those that give names. -/
def SameButNames (a b : List UInt8) : Prop := plainSections? a = plainSections? b

deriving instance DecidableEq for Section

instance (a b : List UInt8) : Decidable (SameButNames a b) :=
  inferInstanceAs (Decidable (plainSections? a = plainSections? b))

/-- A section that gives names adds nothing to the module. -/
theorem addSection_givesNames {s : Section} (h : s.givesNames) (state : Nat × Module) :
    addSection state s = some state := by
  rw [Section.givesNames, Bool.and_eq_true, decide_eq_true_iff] at h
  obtain ⟨hid, hname⟩ := h
  rw [addSection, if_pos hid]
  cases htext : Reader.text s.content with
  | none =>
    rw [htext] at hname
    cases hname
  | some _ => rfl

theorem foldlM_addSection_filter (ss : List Section) (state : Nat × Module) :
    (ss.filter (!·.givesNames)).foldlM addSection state = ss.foldlM addSection state := by
  induction ss generalizing state with
  | nil => rfl
  | cons s ss ih =>
    rw [List.foldlM_cons]
    cases hs : s.givesNames with
    | true =>
      rw [List.filter_cons_of_neg (by simp [hs]), addSection_givesNames hs, ih]
      rfl
    | false =>
      rw [List.filter_cons_of_pos (by simp [hs]), List.foldlM_cons]
      simp only [ih]

/-- What module the bytes hold can be told from the sections that give no names. -/
theorem ofBytes?_eq_plainSections? (bytes : List UInt8) :
    Module.ofBytes? bytes =
      (plainSections? bytes).bind fun ss => (ss.foldlM addSection (0, {})).map Prod.snd := by
  rw [Module.ofBytes?, plainSections?]
  cases sections? bytes with
  | none => rfl
  | some ss =>
    rw [Option.map_some, Option.bind_some, foldlM_addSection_filter, Option.map_eq_bind]
    rfl

end Binary

namespace Compiled

open Binary (SameButNames)

/-- **Discovery without names.** Of a valid binary and one that differs from it in nothing but
sections that give names, both are compiled. They hold the same module, and what is found in its
shape is the same but for the names of parameters. -/
theorem discovery_of_sameButNames {a b : List UInt8} (h : SameButNames a b) {m : Module}
    (hm : Module.ofBytes? a = some m) (hv : m.isValid) (name : String) :
    ∃ c d, compile? name a = some c ∧ compile? name b = some d ∧ c.module = m ∧ d.module = m ∧
      c.shape.SameDiscovery d.shape := by
  have hb : Module.ofBytes? b = some m := by
    rw [Binary.ofBytes?_eq_plainSections?, ← h, ← Binary.ofBytes?_eq_plainSections?, hm]
  refine ⟨_, _, Registry.compile_eq_some.2 ⟨m, hm, hv, rfl⟩,
    Registry.compile_eq_some.2 ⟨m, hb, hv, rfl⟩, rfl, rfl, ?_⟩
  apply ModuleShape.sameDiscovery_of_unnamed
  rw [m.unnamed_shape, m.unnamed_shape]

/-- The sections of a module that exports a command, an event handler and a function that cannot be
shown. -/
def hooksSections : List UInt8 := [
    0x00, 0x61, 0x73, 0x6d, 0x01, 0x00, 0x00, 0x00, 0x01, 0x0f, 0x03, 0x60, 0x01, 0x7f, 0x01, 0x7f,
    0x60, 0x02, 0x7f, 0x7f, 0x00, 0x60, 0x01, 0x7b, 0x00, 0x03, 0x04, 0x03, 0x00, 0x01, 0x02, 0x07,
    0x2d, 0x03, 0x0c, 0x4d, 0x6f, 0x76, 0x65, 0x2e, 0x65, 0x78, 0x65, 0x63, 0x75, 0x74, 0x65, 0x00,
    0x00, 0x0c, 0x48, 0x6f, 0x6f, 0x6b, 0x73, 0x2e, 0x6f, 0x70, 0x65, 0x6e, 0x65, 0x64, 0x00, 0x01,
    0x0b, 0x4c, 0x61, 0x6e, 0x65, 0x73, 0x2e, 0x73, 0x70, 0x6c, 0x61, 0x74, 0x00, 0x02, 0x0a, 0x0c,
    0x03, 0x04, 0x00, 0x41, 0x00, 0x0b, 0x02, 0x00, 0x0b, 0x02, 0x00, 0x0b]

/-- The module with names for the parameters, which make the one a handler. -/
def hooksNamed : List UInt8 := hooksSections ++ [
    0x00, 0x1d, 0x04, 0x6e, 0x61, 0x6d, 0x65, 0x02, 0x16, 0x02, 0x00, 0x01, 0x00, 0x04, 0x73, 0x65,
    0x6c, 0x66, 0x01, 0x02, 0x00, 0x06, 0x73, 0x65, 0x6e, 0x64, 0x65, 0x72, 0x01, 0x01, 0x65]

/-- The module with names that are broken from the start. -/
def hooksBroken : List UInt8 := hooksSections ++ [
    0x00, 0x08, 0x04, 0x6e, 0x61, 0x6d, 0x65, 0x02, 0xff, 0x7f]

/-- With and without its names, the module has the same command. Only with them does the command
take an instance, and is there an event handler. -/
theorem discovery_hooks :
    ∃ c d, compile? "hooks" hooksNamed = some c ∧ compile? "hooks" hooksBroken = some d ∧
      c.shape.SameDiscovery d.shape ∧
      (c.shape.findCommand? none).map TypeShape.name = some "Move" ∧
      c.shape.failures = [("Lanes", "method \x60splat\x60 uses unsupported type v128")] ∧
      (c.shape.types.flatMap TypeShape.methods).map Method.isStatic = [false, true] ∧
      (d.shape.types.flatMap TypeShape.methods).map Method.isStatic = [true, true] ∧
      c.shape.findEventHandler?.isSome ∧ ¬ d.shape.findEventHandler?.isSome := by
  have hsame : SameButNames hooksNamed hooksBroken := by decide +kernel
  have hvalid : (Module.ofBytes? hooksNamed).any Module.isValid := by decide +kernel
  obtain ⟨m, hm, hv⟩ := (Option.any_eq_true _ _).1 hvalid
  obtain ⟨c, d, hc, hd, -, -, hdiscovery⟩ := discovery_of_sameButNames hsame hm hv "hooks"
  have hnamed : (compile? "hooks" hooksNamed).map (fun c =>
      ((c.shape.findCommand? none).map TypeShape.name, c.shape.failures,
        (c.shape.types.flatMap TypeShape.methods).map Method.isStatic,
        c.shape.findEventHandler?.isSome)) =
      some (some "Move", [("Lanes", "method \x60splat\x60 uses unsupported type v128")],
        [false, true], true) := by decide +kernel
  have hbroken : (compile? "hooks" hooksBroken).map (fun d =>
      ((d.shape.types.flatMap TypeShape.methods).map Method.isStatic,
        d.shape.findEventHandler?.isSome)) = some ([true, true], false) := by decide +kernel
  rw [hc, Option.map_some, Option.some.injEq, Prod.mk.injEq, Prod.mk.injEq, Prod.mk.injEq] at hnamed
  rw [hd, Option.map_some, Option.some.injEq, Prod.mk.injEq] at hbroken
  obtain ⟨hcommand, hfailures, hstatic, hhandler⟩ := hnamed
  refine ⟨c, d, hc, hd, hdiscovery, hcommand, hfailures, hstatic, hbroken.1, hhandler, ?_⟩
  rw [hbroken.2]
  exact Bool.false_ne_true

end Compiled

end Wasm

end ScriptHost

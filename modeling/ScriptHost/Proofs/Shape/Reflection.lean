import ScriptHost.Proofs.Wasm.Calls

/-!
# What a shape shows

The shape of a module has one slot for each type that its exported functions are assigned to, in
the order in which the types come up (`Module.Reflected`). A slot shows a method for every function
of the type, in their order and with nothing changed (`Shows`), or, if there is a function that
cannot be shown, the reason against the first of them (`RefusedFor`). So compiling a module loses
no function, shows none twice and puts none in another place (`Compiled.shape_reflected`).
-/

namespace ScriptHost.Wasm

/-! ## Names of parameters -/

/-- What a parameter is called: by the last name that the local is given, or after its number if
it is given none. -/
inductive ParamName (names : List Binary.LocalName) (function index : Nat) : String → Prop where
  | given {before after : List Binary.LocalName} {n : Binary.LocalName}
      (hn : names = before ++ n :: after) (hf : n.function = function) (hi : n.index = index)
      (hlast : ∀ k ∈ after, ¬ (k.function = function ∧ k.index = index)) :
      ParamName names function index n.name
  | numbered (h : ∀ n ∈ names, ¬ (n.function = function ∧ n.index = index)) :
      ParamName names function index ("arg" ++ toString index)

section

variable {names : List Binary.LocalName} {function index : Nat} {text : String}

theorem nameOf?_eq_some_iff :
    Binary.nameOf? names function index = some text ↔
      ∃ before n after, names = before ++ n :: after ∧ n.function = function ∧ n.index = index ∧
        (∀ k ∈ after, ¬ (k.function = function ∧ k.index = index)) ∧ n.name = text := by
  rw [Binary.nameOf?, Option.map_eq_some_iff]
  constructor
  · rintro ⟨n, hn, rfl⟩
    obtain ⟨hp, after, before, hsplit, hafter⟩ := List.find?_eq_some_iff_append.1 hn
    obtain ⟨hf, hi⟩ : n.function = function ∧ n.index = index := of_decide_eq_true hp
    refine ⟨before.reverse, n, after.reverse, ?_, hf, hi, fun k hk => ?_, rfl⟩
    · have := congrArg List.reverse hsplit
      simpa using this
    · have hno := hafter k (List.mem_reverse.1 hk)
      rwa [Bool.not_eq_true', decide_eq_false_iff_not] at hno
  · rintro ⟨before, n, after, rfl, hf, hi, hafter, rfl⟩
    refine ⟨n, List.find?_eq_some_iff_append.2 ⟨?_, after.reverse, before.reverse, ?_, ?_⟩, rfl⟩
    · exact decide_eq_true ⟨hf, hi⟩
    · simp
    · intro k hk
      rw [Bool.not_eq_true', decide_eq_false_iff_not]
      exact hafter k (List.mem_reverse.1 hk)

theorem nameOf?_eq_none_iff :
    Binary.nameOf? names function index = none ↔
      ∀ n ∈ names, ¬ (n.function = function ∧ n.index = index) := by
  rw [Binary.nameOf?, Option.map_eq_none_iff, List.find?_eq_none]
  constructor
  · intro h n hn
    simpa using h n (List.mem_reverse.2 hn)
  · intro h n hn
    simpa using h n (List.mem_reverse.1 hn)

/-- Every parameter has exactly one name. -/
theorem paramName_iff :
    ParamName names function index text ↔
      text = (Binary.nameOf? names function index).getD ("arg" ++ toString index) := by
  constructor
  · intro h
    cases h with
    | given hn hf hi hlast => rw [nameOf?_eq_some_iff.2 ⟨_, _, _, hn, hf, hi, hlast, rfl⟩]; rfl
    | numbered hnone => rw [nameOf?_eq_none_iff.2 hnone]; rfl
  · rintro rfl
    cases hname : Binary.nameOf? names function index with
    | none => exact .numbered (nameOf?_eq_none_iff.1 hname)
    | some text =>
      obtain ⟨before, n, after, hn, hf, hi, hlast, rfl⟩ := nameOf?_eq_some_iff.1 hname
      exact .given hn hf hi hlast

end

/-! ## Methods and reasons -/

/-- The method shows the function: it is called by the same name, and has the same types and as many
parameters, each with the name of the local of its number. -/
structure Shows (names : List Binary.LocalName) (name : String) (e : Export × FuncType)
    (method : Method) : Prop where
  name : method.name = name
  exportName : method.exportName = e.1.name
  paramTypes : method.paramTypes.map valType = e.2.params
  results : method.results.map valType = e.2.results
  length_params : method.params.length = method.paramTypes.length
  params (i : Nat) (text : String) (h : method.params[i]? = some text) :
    ParamName names e.1.index i text

/-- The reason against a function is the first of its types that cannot be shown, where parameters
come before results. -/
def RefusedFor (method : String) (t : FuncType) (reason : String) : Prop :=
  ∃ before v after, t.params ++ t.results = before ++ v :: after ∧
    (∀ u ∈ before, u ∈ [ValType.i32, .i64, .f32, .f64]) ∧
    v ∉ [ValType.i32, .i64, .f32, .f64] ∧
    reason = "method \x60" ++ method ++ "\x60 uses unsupported type " ++ v.shown

section

variable {names : List Binary.LocalName} {name reason : String} {e : Export × FuncType}
  {method : Method}

theorem valType_injective : Function.Injective valType := by
  intro a b h
  cases a <;> cases b <;> first | rfl | cases h

theorem map_valType_eq_iff {vs : List ValType} {scalars : List Scalar}
    (h : ∀ v ∈ vs, v ∈ [ValType.i32, .i64, .f32, .f64]) :
    scalars.map valType = vs ↔ scalars = vs.filterMap ValType.scalar? := by
  constructor
  · intro hs
    apply List.map_injective_iff.2 valType_injective
    rw [hs, map_valType_scalars h]
  · rintro rfl
    exact map_valType_scalars h

theorem length_scalars {vs : List ValType} (h : ∀ v ∈ vs, v ∈ [ValType.i32, .i64, .f32, .f64]) :
    (vs.filterMap ValType.scalar?).length = vs.length := by
  rw [← List.length_map valType, map_valType_scalars h]

/-- There is exactly one method that shows a function. -/
theorem shows_iff (h : e.2.Shown) :
    Shows names name e method ↔ method = shownMethod names name e.1 e.2 := by
  have hp := fun v hv => h v (List.mem_append_left _ hv)
  have hr := fun v hv => h v (List.mem_append_right _ hv)
  constructor
  · intro hs
    have hlength : method.params.length = e.2.params.length := by
      rw [hs.length_params, (map_valType_eq_iff hp).1 hs.paramTypes, length_scalars hp]
    have hparams : method.params = (List.range e.2.params.length).map fun i =>
        (Binary.nameOf? names e.1.index i).getD ("arg" ++ toString i) := by
      refine List.ext_getElem (by simpa using hlength) fun i hi _ => ?_
      rw [List.getElem_map, List.getElem_range]
      exact paramName_iff.1 (hs.params i _ (List.getElem?_eq_getElem hi))
    obtain ⟨mname, mexport, mparams, mtypes, mresults⟩ := method
    rw [shownMethod, Method.mk.injEq]
    exact ⟨hs.name, hs.exportName, hparams, (map_valType_eq_iff hp).1 hs.paramTypes,
      (map_valType_eq_iff hr).1 hs.results⟩
  · rintro rfl
    refine ⟨rfl, rfl, map_valType_scalars hp, map_valType_scalars hr, ?_, fun i text hi => ?_⟩
    · simp [shownMethod, length_scalars hp]
    · simp only [shownMethod, List.getElem?_map, Option.map_eq_some_iff] at hi
      obtain ⟨n, hn, rfl⟩ := hi
      obtain ⟨hlt, rfl⟩ := List.getElem?_eq_some_iff.1 hn
      rw [List.getElem_range]
      exact paramName_iff.2 rfl

theorem methodOf_eq_error_iff :
    methodOf names name e.1 e.2 = .error reason ↔ RefusedFor name e.2 reason := by
  have hscalar (v : ValType) : v.scalar?.isNone = true ↔ v ∉ [ValType.i32, .i64, .f32, .f64] := by
    cases v <;> decide
  unfold methodOf RefusedFor
  constructor
  · intro h
    split at h
    · rename_i v hv
      cases h
      obtain ⟨hnone, before, after, hsplit, hbefore⟩ := List.find?_eq_some_iff_append.1 hv
      refine ⟨before, v, after, hsplit, fun u hu => ?_, (hscalar v).1 hnone, rfl⟩
      have := hbefore u hu
      rw [Bool.not_eq_true', ← Bool.not_eq_true, hscalar] at this
      exact Decidable.not_not.1 this
    · cases h
  · rintro ⟨before, v, after, hsplit, hbefore, hv, rfl⟩
    have hfind : (e.2.params ++ e.2.results).find? (fun v => v.scalar?.isNone) = some v := by
      refine List.find?_eq_some_iff_append.2
        ⟨(hscalar v).2 hv, before, after, hsplit, fun u hu => ?_⟩
      rw [Bool.not_eq_true', ← Bool.not_eq_true, hscalar]
      exact fun hn => hn (hbefore u hu)
    rw [hfind]

theorem RefusedFor.not_shown {t : FuncType} (h : RefusedFor name t reason) : ¬ t.Shown := by
  obtain ⟨before, v, after, hsplit, -, hv, -⟩ := h
  intro hs
  apply hv
  apply hs
  simp [hsplit]

theorem exists_refusedFor (name : String) {t : FuncType} (h : ¬ t.Shown) :
    ∃ reason, RefusedFor name t reason := by
  have hfails : ∃ reason, methodOf [] name default t = .error reason := methodOf_not_shown h
  obtain ⟨reason, hr⟩ := hfails
  have hfor : RefusedFor name ((default, t) : Export × FuncType).2 reason :=
    methodOf_eq_error_iff.1 hr
  exact ⟨reason, hfor⟩

end

/-- Going through a list fails by the first thing that does. -/
theorem mapM_eq_error_iff {ε α β : Type} {f : α → Except ε β} {xs : List α} {reason : ε} :
    (xs.map f).mapM id = .error reason ↔
      ∃ before x after, xs = before ++ x :: after ∧ (∀ y ∈ before, ∃ b, f y = .ok b) ∧
        f x = .error reason := by
  induction xs with
  | nil => simp [pure, Except.pure]
  | cons x xs ih =>
    rw [List.map_cons, List.mapM_cons, id]
    cases hx : f x with
    | error e =>
      constructor
      · rintro ⟨⟩
        exact ⟨[], x, xs, rfl, by simp, hx⟩
      · rintro ⟨before, y, after, hsplit, hbefore, hy⟩
        cases before with
        | nil =>
          obtain ⟨rfl, -⟩ := List.cons.inj hsplit
          cases hx.symm.trans hy
          rfl
        | cons z before =>
          obtain ⟨rfl, -⟩ := List.cons.inj hsplit
          obtain ⟨b, hb⟩ := hbefore x List.mem_cons_self
          cases hx.symm.trans hb
    | ok b =>
      have hrest : (do
            let c ← (.ok b : Except ε β)
            return c :: (← (xs.map f).mapM id)) = Except.error reason ↔
          (xs.map f).mapM id = .error reason := by
        cases (xs.map f).mapM id with
        | error e => exact Iff.rfl
        | ok bs => exact iff_of_false nofun nofun
      rw [hrest, ih]
      constructor
      · rintro ⟨before, y, after, rfl, hbefore, hy⟩
        refine ⟨x :: before, y, after, rfl, fun z hz => ?_, hy⟩
        rcases List.mem_cons.1 hz with rfl | hz
        · exact ⟨b, hx⟩
        · exact hbefore z hz
      · rintro ⟨before, y, after, hsplit, hbefore, hy⟩
        cases before with
        | nil =>
          obtain ⟨rfl, -⟩ := List.cons.inj hsplit
          cases hx.symm.trans hy
        | cons z before =>
          obtain ⟨rfl, rfl⟩ := List.cons.inj hsplit
          exact ⟨before, y, after, rfl, fun w hw => hbefore w (List.mem_cons_of_mem _ hw), hy⟩

/-- Things that are each related to just one have a single list of these. -/
theorem forall₂_iff_eq_map {α β : Type} {R : α → β → Prop} {g : α → β} {xs : List α}
    {ys : List β} (h : ∀ x ∈ xs, ∀ y, R x y ↔ y = g x) :
    List.Forall₂ R xs ys ↔ ys = xs.map g := by
  induction xs generalizing ys with
  | nil => simp
  | cons x xs ih =>
    rw [List.forall₂_cons_left_iff, List.map_cons]
    constructor
    · rintro ⟨y, rest, hy, hrest, rfl⟩
      rw [(h x List.mem_cons_self y).1 hy, (ih fun z hz => h z (List.mem_cons_of_mem _ hz)).1 hrest]
    · rintro rfl
      refine ⟨g x, xs.map g, (h x List.mem_cons_self _).2 rfl, ?_, rfl⟩
      exact (ih fun z hz => h z (List.mem_cons_of_mem _ hz)).2 rfl

/-! ## The slots of a module -/

namespace Module

/-- The slots show the exported functions of the module: one slot for each type, in the order in
which the types come up; a slot that has failed for the first function of the type that cannot be
shown, any other with all functions of its type. -/
structure Reflected (m : Module) (name : String) (names : List Binary.LocalName)
    (slots : List Slot) : Prop where
  nodup : (slots.map Slot.name).Nodup
  types (type : String) : type ∈ slots.map Slot.name ↔
    ∃ e ∈ m.exportedFunctions, (assigned name e).1 = type
  ordered : (slots.map Slot.name).Pairwise fun type other =>
    m.firstPlace name type < m.firstPlace name other
  fails (type : String) : (∃ reason, .failed type reason ∈ slots) ↔
    ∃ e ∈ m.exportedFunctions, (assigned name e).1 = type ∧ ¬ e.2.Shown
  reason (type reason : String) : .failed type reason ∈ slots ↔
    ∃ before e after, m.functionsOf name type = before ++ e :: after ∧
      (∀ f ∈ before, f.2.Shown) ∧ RefusedFor (assigned name e).2 e.2 reason
  methods (t : TypeShape) : .loaded t ∈ slots ↔
    m.functionsOf name t.name ≠ [] ∧ (∀ e ∈ m.functionsOf name t.name, e.2.Shown) ∧
      List.Forall₂ (fun e => Shows names (assigned name e).2 e) (m.functionsOf name t.name)
        t.methods

variable {m : Module} {name : String} {names : List Binary.LocalName}

/-- The slot of a type. -/
def slotOf (m : Module) (name : String) (names : List Binary.LocalName) (type : String) : Slot :=
  Slot.ofResults type ((m.functionsOf name type).map fun e =>
    methodOf names (assigned name e).2 e.1 e.2)

theorem slots_eq (m : Module) (name : String) (names : List Binary.LocalName) :
    (m.shape name names).slots = (m.typeNames name).eraseDups.map (m.slotOf name names) := by
  rw [slots_shape, group_eq, List.map_map]
  exact List.map_congr_left fun type _ => congrArg _ (resultsOf_functions names type)

theorem mem_typeNames_iff {type : String} :
    type ∈ m.typeNames name ↔ m.functionsOf name type ≠ [] := by
  rw [typeNames, List.mem_map, functionsOf, ne_eq, List.filter_eq_nil_iff]
  push Not
  simp only [decide_eq_true_eq]

theorem shown_of_methodOf {e : Export × FuncType} {method : String} {r : Method}
    (h : methodOf names method e.1 e.2 = .ok r) : e.2.Shown := by
  by_contra hn
  have hfails : ∃ reason, methodOf names method e.1 e.2 = .error reason := methodOf_not_shown hn
  obtain ⟨reason, he⟩ := hfails
  cases h.symm.trans he

theorem slotOf_eq_failed_iff {type other reason : String} :
    m.slotOf name names type = .failed other reason ↔ type = other ∧
      ∃ before e after, m.functionsOf name type = before ++ e :: after ∧
        (∀ f ∈ before, f.2.Shown) ∧ RefusedFor (assigned name e).2 e.2 reason := by
  have hfails : m.slotOf name names type = .failed other reason ↔ type = other ∧
      ((m.functionsOf name type).map fun e =>
        methodOf names (assigned name e).2 e.1 e.2).mapM id = .error reason := by
    unfold slotOf Slot.ofResults
    split
    · rename_i h
      simp [h]
    · rename_i h
      simp [h]
  rw [hfails, mapM_eq_error_iff]
  refine and_congr_right fun _ => exists_congr fun before => exists_congr fun e =>
    exists_congr fun after => and_congr_right fun _ => and_congr (forall₂_congr fun f _ => ?_) ?_
  · exact ⟨fun ⟨r, h⟩ => shown_of_methodOf h, fun h => ⟨_, methodOf_shown h⟩⟩
  · exact methodOf_eq_error_iff

theorem slotOf_eq_loaded_iff {type : String} {t : TypeShape} :
    m.slotOf name names type = .loaded t ↔ type = t.name ∧
      (∀ e ∈ m.functionsOf name type, e.2.Shown) ∧
      List.Forall₂ (fun e => Shows names (assigned name e).2 e) (m.functionsOf name type)
        t.methods := by
  obtain ⟨hs, hslot⟩ | ⟨hs, reason, hslot⟩ := @ofResults_functions m name names type
  · have hmethods : List.Forall₂ (fun e => Shows names (assigned name e).2 e)
        (m.functionsOf name type) t.methods ↔ t.methods = (m.typeOf name names type).methods :=
      forall₂_iff_eq_map fun e he _ => shows_iff (hs e he)
    rw [slotOf, hslot, Slot.loaded.injEq, hmethods]
    constructor
    · rintro rfl
      exact ⟨rfl, hs, rfl⟩
    · rintro ⟨hname, -, heq⟩
      obtain ⟨tname, tmethods⟩ := t
      rw [typeOf, TypeShape.mk.injEq]
      exact ⟨hname, heq.symm⟩
  · rw [slotOf, hslot]
    exact iff_of_false nofun fun h => hs h.2.1

theorem exists_mem_functionsOf {type : String} {p : Export × FuncType → Prop} :
    (∃ e ∈ m.functionsOf name type, p e) ↔
      ∃ e ∈ m.exportedFunctions, (assigned name e).1 = type ∧ p e := by
  simp only [functionsOf, List.mem_filter, decide_eq_true_eq, and_assoc]

theorem mem_slots_iff {slot : Slot} :
    slot ∈ (m.shape name names).slots ↔
      ∃ type, m.functionsOf name type ≠ [] ∧ m.slotOf name names type = slot := by
  rw [slots_eq, List.mem_map]
  refine exists_congr fun type => and_congr_left fun _ => ?_
  rw [List.mem_eraseDups, mem_typeNames_iff]

/-- Among functions one of which cannot be shown there is a first one, with a reason. -/
theorem exists_first_refused {functions : List (Export × FuncType)} :
    (∃ e ∈ functions, ¬ e.2.Shown) ↔
      ∃ reason before e after, functions = before ++ e :: after ∧ (∀ f ∈ before, f.2.Shown) ∧
        RefusedFor (assigned name e).2 e.2 reason := by
  constructor
  · rintro ⟨e, he, hn⟩
    have hsome : (functions.find? fun f => ¬ f.2.Shown).isSome :=
      List.find?_isSome.2 ⟨e, he, decide_eq_true hn⟩
    obtain ⟨first, hfirst⟩ := Option.isSome_iff_exists.1 hsome
    obtain ⟨hp, before, after, hsplit, hbefore⟩ := List.find?_eq_some_iff_append.1 hfirst
    obtain ⟨reason, hreason⟩ := exists_refusedFor (assigned name first).2 (of_decide_eq_true hp)
    refine ⟨reason, before, first, after, hsplit, fun f hf => ?_, hreason⟩
    have hshown := hbefore f hf
    rwa [Bool.not_eq_true', decide_eq_false_iff_not, Decidable.not_not] at hshown
  · rintro ⟨reason, before, e, after, rfl, -, he⟩
    exact ⟨e, by simp, he.not_shown⟩

theorem reflected_shape (m : Module) (name : String) (names : List Binary.LocalName) :
    m.Reflected name names (m.shape name names).slots := by
  have hnames : (m.shape name names).slots.map Slot.name = (m.typeNames name).eraseDups := by
    rw [slots_eq, List.map_map]
    exact (List.map_congr_left fun type _ => Slot.name_ofResults _ _).trans (List.map_id' _)
  have hreason (type reason : String) : .failed type reason ∈ (m.shape name names).slots ↔
      ∃ before e after, m.functionsOf name type = before ++ e :: after ∧
        (∀ f ∈ before, f.2.Shown) ∧ RefusedFor (assigned name e).2 e.2 reason := by
    rw [mem_slots_iff]
    constructor
    · rintro ⟨other, -, hslot⟩
      obtain ⟨rfl, hfirst⟩ := slotOf_eq_failed_iff.1 hslot
      exact hfirst
    · intro hfirst
      refine ⟨type, ?_, slotOf_eq_failed_iff.2 ⟨rfl, hfirst⟩⟩
      obtain ⟨before, e, after, hsplit, -⟩ := hfirst
      simp [hsplit]
  refine ⟨hnames ▸ nodup_eraseDups _, fun type => ?_, hnames ▸ pairwise_eraseDups _, fun type => ?_,
    hreason, fun t => ?_⟩
  · rw [hnames, List.mem_eraseDups, typeNames, List.mem_map]
  · simp only [hreason]
    rw [← exists_first_refused, exists_mem_functionsOf]
  · rw [mem_slots_iff]
    constructor
    · rintro ⟨type, hne, hslot⟩
      obtain ⟨rfl, hs, hmethods⟩ := slotOf_eq_loaded_iff.1 hslot
      exact ⟨hne, hs, hmethods⟩
    · rintro ⟨hne, hs, hmethods⟩
      exact ⟨t.name, hne, slotOf_eq_loaded_iff.2 ⟨rfl, hs, hmethods⟩⟩

/-- In a valid module every function that is exported has a type. -/
theorem map_fst_exportedFunctions (h : m.isValid) :
    m.exportedFunctions.map Prod.fst = m.exports.filter fun e => e.kind = .func := by
  have hsome : ∀ e ∈ m.exports, e.kind = .func → ∃ t, m.functionType? e.index = some t := by
    intro e he hk
    have ht := exportType_isSome h he
    simp only [exportType?, hk, Option.isSome_map] at ht
    exact Option.isSome_iff_exists.1 ht
  unfold exportedFunctions
  generalize m.exports = exports at hsome
  induction exports with
  | nil => rfl
  | cons e rest ih =>
    have hrest := ih fun f hf => hsome f (List.mem_cons_of_mem _ hf)
    by_cases hk : e.kind = .func
    · obtain ⟨t, ht⟩ := hsome e List.mem_cons_self hk
      simp [hk, ht, hrest]
    · simp [hk, hrest]

end Module

namespace Compiled

/-- **What a shape shows.** The shape of a binary that is compiled shows the exports that are
functions, each with its type, grouped by the types that their names stand for, and parameters by
the names that the binary gives to locals. -/
theorem shape_reflected {name : String} {bytes : List UInt8} {c : Compiled}
    (h : compile? name bytes = some c) :
    c.shape.name = name ∧
    c.module.exportedFunctions.map Prod.fst = c.module.exports.filter (fun e => e.kind = .func) ∧
    (∀ e ∈ c.module.exportedFunctions, c.module.functionType? e.1.index = some e.2) ∧
    c.module.Reflected name (Binary.localNames bytes) c.shape.slots := by
  have hv := isValid_of_compile h
  have hshape : c.shape = c.module.shape name (Binary.localNames bytes) := by
    simp only [compile?, bind, Option.bind_eq_some_iff] at h
    obtain ⟨m, -, h⟩ := h
    split at h
    · rw [← Option.some.inj h]
    · cases h
  refine ⟨by rw [hshape]; rfl, Module.map_fst_exportedFunctions hv, ?_, ?_⟩
  · rintro ⟨e, t⟩ he
    exact (Module.mem_exportedFunctions.1 he).2.2
  · rw [hshape]
    exact c.module.reflected_shape name (Binary.localNames bytes)

/-- The binary of a module that exports functions of three types in turn, and its memory. One takes
a vector; a parameter of another is called `self`. -/
def interleavedBinary : List UInt8 := [
    0x00, 0x61, 0x73, 0x6d, 0x01, 0x00, 0x00, 0x00, 0x01, 0x0e, 0x03, 0x60, 0x01, 0x7f, 0x01, 0x7e,
    0x60, 0x01, 0x7b, 0x00, 0x60, 0x01, 0x7c, 0x00, 0x03, 0x04, 0x03, 0x00, 0x01, 0x02, 0x05, 0x03,
    0x01, 0x00, 0x01, 0x07, 0x28, 0x06, 0x03, 0x41, 0x2e, 0x66, 0x00, 0x00, 0x03, 0x42, 0x2e, 0x67,
    0x00, 0x01, 0x06, 0x6d, 0x65, 0x6d, 0x6f, 0x72, 0x79, 0x02, 0x00, 0x03, 0x41, 0x2e, 0x68, 0x00,
    0x02, 0x03, 0x42, 0x2e, 0x6b, 0x00, 0x00, 0x03, 0x72, 0x75, 0x6e, 0x00, 0x02, 0x0a, 0x0c, 0x03,
    0x04, 0x00, 0x42, 0x00, 0x0b, 0x02, 0x00, 0x0b, 0x02, 0x00, 0x0b, 0x00, 0x10, 0x04, 0x6e, 0x61,
    0x6d, 0x65, 0x02, 0x09, 0x01, 0x00, 0x01, 0x00, 0x04, 0x73, 0x65, 0x6c, 0x66]

theorem reflected_interleavedBinary :
    ∃ c, compile? "tools" interleavedBinary = some c ∧
      c.module.Reflected "tools" (Binary.localNames interleavedBinary) c.shape.slots ∧
      c.shape.slots =
        [.loaded ⟨"A", [⟨"f", "A.f", ["self"], [.i32], [.i64]⟩,
          ⟨"h", "A.h", ["arg0"], [.f64], []⟩]⟩,
          .failed "B" "method \x60g\x60 uses unsupported type v128",
          .loaded ⟨"tools", [⟨"run", "run", ["arg0"], [.f64], []⟩]⟩] := by
  have h : (compile? "tools" interleavedBinary).map (fun c => c.shape.slots) = some
      [.loaded ⟨"A", [⟨"f", "A.f", ["self"], [.i32], [.i64]⟩, ⟨"h", "A.h", ["arg0"], [.f64], []⟩]⟩,
        .failed "B" "method \x60g\x60 uses unsupported type v128",
        .loaded ⟨"tools", [⟨"run", "run", ["arg0"], [.f64], []⟩]⟩] := by decide +kernel
  obtain ⟨c, hc, hslots⟩ := Option.map_eq_some_iff.1 h
  exact ⟨c, hc, (shape_reflected hc).2.2.2, hslots⟩

end Compiled

end ScriptHost.Wasm

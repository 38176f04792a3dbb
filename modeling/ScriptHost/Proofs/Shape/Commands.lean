import Mathlib.Data.List.Basic
import Mathlib.Data.List.Induction
import Mathlib.Data.List.Nodup
import Mathlib.Data.Nat.Find
import ScriptHost.Proofs.List.Repetition
import ScriptHost.Proofs.Wasm.Instances
import ScriptHost.Shape

/-!
# Commands of a module

What comes of adding exports to slots one after the other: one slot for each type, in the order in
which the types came up (`group_eq`), which holds the methods of the type in their order, or the
first reason why there is one that it cannot show (`Slot.ofResults`).

What the search for a command finds, told from the exported functions alone. Each function is
assigned a type and a method by its export name; a type is a command if all its functions can be
shown and one of them runs it (`Wasm.Module.IsCommand`). The search looks at the first function
that is assigned to `execute` only. So it finds the first command unless another function with
that assignment stands before the one that runs it (`Wasm.Module.finds_first_command_iff`), which
takes a function of the module itself and one of a type that is named like the module
(`splitExport_shared`).
-/

namespace ScriptHost

/-! ## Grouping exports by type -/

/-- What an export gives: its type, and its method or why it cannot be shown. -/
abbrev Found : Type := String × Except String Method

/-- The slots of exports that are added one after the other. -/
def group (found : List Found) : List Slot :=
  found.foldl (fun slots f => addToSlot f.1 f.2 slots) []

/-- What the exports of one type gave, in order. -/
def resultsOf (type : String) (found : List Found) : List (Except String Method) :=
  (found.filter fun f => f.1 = type).map Prod.snd

/-- The slot of a type: all its methods, or the first reason against one of them. -/
def Slot.ofResults (type : String) (results : List (Except String Method)) : Slot :=
  match results.mapM id with
  | .ok methods => .loaded ⟨type, methods⟩
  | .error reason => .failed type reason

/-- A slot with what one more export of its type gave. -/
def Slot.add (slot : Slot) (result : Except String Method) : Slot :=
  match slot, result with
  | .failed name reason, _ => .failed name reason
  | .loaded type, .ok m => .loaded { type with methods := type.methods ++ [m] }
  | .loaded type, .error reason => .failed type.name reason

@[simp]
theorem Slot.name_ofResults (type : String) (results : List (Except String Method)) :
    (Slot.ofResults type results).name = type := by
  unfold Slot.ofResults
  split <;> rfl

theorem Slot.ofResults_snoc (type : String) (results : List (Except String Method))
    (result : Except String Method) :
    Slot.ofResults type (results ++ [result]) = (Slot.ofResults type results).add result := by
  unfold Slot.ofResults
  rw [List.mapM_append]
  cases results.mapM id with
  | error reason => rfl
  | ok methods => cases result <;> rfl

theorem addToSlot_cons (type : String) (result : Except String Method) (slot : Slot)
    (rest : List Slot) :
    addToSlot type result (slot :: rest) =
      if slot.name = type then slot.add result :: rest
      else slot :: addToSlot type result rest := by
  rw [addToSlot.eq_def]
  dsimp only
  split
  · cases slot <;> cases result <;> rfl
  · rfl

/-- The first export of a type makes a slot behind the others. -/
theorem addToSlot_new {type : String} {slots : List Slot} (h : type ∉ slots.map Slot.name)
    (result : Except String Method) :
    addToSlot type result slots = slots ++ [Slot.ofResults type [result]] := by
  induction slots with
  | nil => cases result <;> rfl
  | cons slot rest ih =>
    rw [List.map_cons, List.mem_cons, not_or] at h
    rw [addToSlot_cons, if_neg (Ne.symm h.1), ih h.2, List.cons_append]

/-- Another export of a type goes to the slot of the type. -/
theorem addToSlot_known {type : String} {slots : List Slot} (hn : (slots.map Slot.name).Nodup)
    (h : type ∈ slots.map Slot.name) (result : Except String Method) :
    addToSlot type result slots =
      slots.map fun slot => if slot.name = type then slot.add result else slot := by
  induction slots with
  | nil => exact absurd h List.not_mem_nil
  | cons slot rest ih =>
    rw [List.map_cons, List.nodup_cons] at hn
    rw [addToSlot_cons, List.map_cons]
    by_cases hs : slot.name = type
    · rw [if_pos hs, if_pos hs]
      have hrest : ∀ other ∈ rest, (if other.name = type then other.add result else other) =
          id other := by
        intro other ho
        refine if_neg fun he => hn.1 ?_
        rw [hs, ← he]
        exact List.mem_map_of_mem ho
      rw [List.map_congr_left hrest, List.map_id]
    · rw [List.map_cons, List.mem_cons] at h
      rw [if_neg hs, if_neg hs, ih hn.2 (h.resolve_left (Ne.symm hs))]

/-! ## All exports -/

theorem resultsOf_snoc (type : String) (found : List Found) (f : Found) :
    resultsOf type (found ++ [f]) =
      if f.1 = type then resultsOf type found ++ [f.2] else resultsOf type found := by
  unfold resultsOf
  rw [List.filter_append, List.map_append]
  by_cases h : f.1 = type <;> simp [h]

/-- In a list that is ordered by a key, the first thing of a kind is the one with the least key. -/
theorem find?_eq_some_iff_least {α : Type} {key : α → Nat} {p : α → Bool} {xs : List α}
    (h : xs.Pairwise fun a b => key a < key b) {x : α} :
    xs.find? p = some x ↔ x ∈ xs ∧ p x ∧ ∀ y ∈ xs, p y → key x ≤ key y := by
  induction xs with
  | nil => simp
  | cons a xs ih =>
    rw [List.pairwise_cons] at h
    by_cases ha : p a
    · rw [List.find?_cons_of_pos ha]
      constructor
      · intro hx
        obtain rfl := Option.some.inj hx
        refine ⟨List.mem_cons_self, ha, fun y hy _ => ?_⟩
        rcases List.mem_cons.1 hy with rfl | hy
        · exact Nat.le_refl _
        · exact Nat.le_of_lt (h.1 y hy)
      · rintro ⟨hx, hp, hleast⟩
        rcases List.mem_cons.1 hx with rfl | hx
        · rfl
        · exact absurd (h.1 x hx) (Nat.not_lt.2 (hleast a List.mem_cons_self ha))
    · rw [List.find?_cons_of_neg ha, ih h.2]
      constructor
      · rintro ⟨hx, hp, hleast⟩
        refine ⟨List.mem_cons_of_mem _ hx, hp, fun y hy hpy => ?_⟩
        rcases List.mem_cons.1 hy with rfl | hy
        · exact absurd hpy ha
        · exact hleast y hy hpy
      · rintro ⟨hx, hp, hleast⟩
        refine ⟨?_, hp, fun y hy => hleast y (List.mem_cons_of_mem _ hy)⟩
        rcases List.mem_cons.1 hx with rfl | hx
        · exact absurd hp ha
        · exact hx

/-- **Grouping.** There is one slot for each type, in the order in which the types came up. -/
theorem group_eq (found : List Found) :
    group found = (found.map Prod.fst).eraseDups.map fun type =>
      Slot.ofResults type (resultsOf type found) := by
  induction found using List.reverseRecOn with
  | nil => rfl
  | append_singleton found f ih =>
    have hnames : (group found).map Slot.name = (found.map Prod.fst).eraseDups := by
      rw [ih, List.map_map]
      exact (List.map_congr_left fun type _ => Slot.name_ofResults _ _).trans (List.map_id' _)
    have hstep : group (found ++ [f]) = addToSlot f.1 f.2 (group found) := by
      rw [group, List.foldl_append]
      rfl
    rw [hstep, List.map_append, List.map_singleton, eraseDups_snoc]
    by_cases hf : f.1 ∈ found.map Prod.fst
    · have hknown : f.1 ∈ (group found).map Slot.name := by rwa [hnames, List.mem_eraseDups]
      rw [if_pos hf, addToSlot_known (hnames ▸ nodup_eraseDups _) hknown, ih, List.map_map]
      refine List.map_congr_left fun type _ => ?_
      rw [Function.comp_apply, Slot.name_ofResults, resultsOf_snoc]
      by_cases he : f.1 = type
      · rw [if_pos he.symm, if_pos he, Slot.ofResults_snoc]
      · rw [if_neg (Ne.symm he), if_neg he]
    · have hnew : f.1 ∉ (group found).map Slot.name := by rwa [hnames, List.mem_eraseDups]
      have hempty : resultsOf f.1 found = [] := by
        unfold resultsOf
        rw [List.map_eq_nil_iff, List.filter_eq_nil_iff]
        intro g hg he
        exact hf (List.mem_map.2 ⟨g, hg, of_decide_eq_true he⟩)
      rw [if_neg hf, addToSlot_new hnew, ih, List.map_append, List.map_singleton, resultsOf_snoc,
        if_pos rfl, hempty, List.nil_append]
      congr 1
      refine List.map_congr_left fun type ht => ?_
      rw [resultsOf_snoc, if_neg]
      rintro rfl
      exact hf (List.mem_eraseDups.1 ht)

/-! ## Export names -/

/-- Characters with a dot among them, put together from what is before and behind the last one. -/
theorem take_append_behind_last_dot (cs : List Char)
    (h : (cs.reverse.takeWhile (· ≠ '.')).reverse.length < cs.length) :
    cs.take (cs.length - (cs.reverse.takeWhile (· ≠ '.')).reverse.length - 1) ++
      '.' :: (cs.reverse.takeWhile (· ≠ '.')).reverse = cs := by
  have hcs : (cs.reverse.dropWhile (· ≠ '.')).reverse ++
      (cs.reverse.takeWhile (· ≠ '.')).reverse = cs := by
    rw [← List.reverse_append, List.takeWhile_append_dropWhile, List.reverse_reverse]
  generalize (cs.reverse.takeWhile (· ≠ '.')).reverse = behind at h hcs ⊢
  have hdot := List.head?_dropWhile_not (· ≠ '.') cs.reverse
  cases hd : cs.reverse.dropWhile (· ≠ '.') with
  | nil =>
    rw [hd, List.reverse_nil, List.nil_append] at hcs
    exact absurd (congrArg List.length hcs) (Nat.ne_of_lt h)
  | cons c rest =>
    rw [hd] at hdot hcs
    obtain rfl : c = '.' := by simpa using hdot
    rw [List.reverse_cons, List.append_assoc, List.singleton_append] at hcs
    have hlen : cs.length - behind.length - 1 = rest.reverse.length := by
      rw [← hcs, List.length_append, List.length_cons]
      omega
    rw [hlen]
    conv_lhs => rw [← hcs]
    rw [List.take_left, hcs]

/-- A name that is cut is put together again by a dot; any other stands for the module. -/
theorem splitExport_cases (exportName moduleName : String) :
    exportName = (splitExport exportName moduleName).1 ++ "." ++
        (splitExport exportName moduleName).2 ∨
      splitExport exportName moduleName = (moduleName, exportName) := by
  unfold splitExport
  dsimp only
  split
  · rename_i h
    left
    dsimp only
    apply String.toList_injective
    simp only [String.toList_append, String.toList_ofList, List.append_assoc]
    exact (take_append_behind_last_dot exportName.toList h.1).symm
  · exact .inr rfl

/-- Two names that stand for the same method of a type: one of the module itself, and one of a
type that is named like the module. -/
theorem splitExport_shared {a b moduleName type method : String} (hne : a ≠ b)
    (ha : splitExport a moduleName = (type, method))
    (hb : splitExport b moduleName = (type, method)) :
    (a = method ∧ b = moduleName ++ "." ++ method) ∨
      (b = method ∧ a = moduleName ++ "." ++ method) := by
  have hac := splitExport_cases a moduleName
  have hbc := splitExport_cases b moduleName
  rw [ha] at hac
  rw [hb] at hbc
  rcases hac with hac | hac <;> rcases hbc with hbc | hbc
  · exact absurd (hac.trans hbc.symm) hne
  · obtain ⟨rfl, rfl⟩ := Prod.mk.inj hbc
    exact .inr ⟨rfl, hac⟩
  · obtain ⟨rfl, rfl⟩ := Prod.mk.inj hac
    exact .inl ⟨rfl, hbc⟩
  · exact absurd ((Prod.mk.inj hac).2.symm.trans (Prod.mk.inj hbc).2) hne

namespace Wasm

/-! ## What functions give -/

/-- Can all parameters and results be shown as scalars? -/
def FuncType.Shown (t : FuncType) : Prop :=
  ∀ v ∈ t.params ++ t.results, v ∈ [ValType.i32, .i64, .f32, .f64]

instance (t : FuncType) : Decidable t.Shown :=
  inferInstanceAs (Decidable (∀ v ∈ t.params ++ t.results, v ∈ [ValType.i32, .i64, .f32, .f64]))

/-- The type of functions that run a command. -/
def executeType : FuncType := ⟨[.i32], [.i32]⟩

theorem ValType.isSome_scalar?_iff (v : ValType) :
    v.scalar?.isSome ↔ v ∈ [ValType.i32, .i64, .f32, .f64] := by
  cases v <;> decide

/-- The method of a function all of whose types can be shown. -/
def shownMethod (names : List Binary.LocalName) (method : String) (e : Export) (t : FuncType) :
    Method where
  name := method
  exportName := e.name
  params := (List.range t.params.length).map fun i =>
    (Binary.nameOf? names e.index i).getD ("arg" ++ toString i)
  paramTypes := t.params.filterMap ValType.scalar?
  results := t.results.filterMap ValType.scalar?

variable {names : List Binary.LocalName} {method : String} {e : Export} {t : FuncType}

theorem methodOf_shown (h : t.Shown) :
    methodOf names method e t = .ok (shownMethod names method e t) := by
  have hfind : ((t.params ++ t.results).find? fun v => v.scalar?.isNone) = none := by
    rw [List.find?_eq_none]
    intro v hv hn
    have := (v.isSome_scalar?_iff).2 (h v hv)
    simp [Option.isNone_iff_eq_none.1 hn] at this
  rw [methodOf, hfind]
  rfl

theorem methodOf_not_shown (h : ¬ t.Shown) :
    ∃ reason, methodOf names method e t = .error reason := by
  unfold FuncType.Shown at h
  push Not at h
  obtain ⟨v, hv, hs⟩ := h
  have hfind : ((t.params ++ t.results).find? fun v => v.scalar?.isNone).isSome := by
    rw [List.find?_isSome]
    refine ⟨v, hv, ?_⟩
    rwa [← v.isSome_scalar?_iff, Bool.not_eq_true, Option.isSome_eq_false_iff] at hs
  obtain ⟨w, hw⟩ := Option.isSome_iff_exists.1 hfind
  exact ⟨_, by rw [methodOf, hw]⟩

namespace Module

variable (m : Module) (name : String)

/-- The type and method that an exported function is assigned. -/
def assigned (e : Export × FuncType) : String × String := splitExport e.1.name name

/-- The exported functions of a type. -/
def functionsOf (type : String) : List (Export × FuncType) :=
  m.exportedFunctions.filter fun e => (assigned name e).1 = type

/-- A type with all its methods. -/
def typeOf (names : List Binary.LocalName) (type : String) : TypeShape :=
  ⟨type, (m.functionsOf name type).map fun e => shownMethod names (assigned name e).2 e.1 e.2⟩

/-- The types of the exported functions, one for each function. -/
def typeNames : List String := m.exportedFunctions.map fun e => (assigned name e).1

/-- Where in the order of exports the first function of a type stands. -/
def firstPlace (type : String) : Nat := (m.typeNames name).idxOf type

/-- A type is a command if all its functions can be shown and one of them runs it. -/
structure IsCommand (type : String) : Prop where
  shown : ∀ e ∈ m.exportedFunctions, (assigned name e).1 = type → e.2.Shown
  runs : ∃ e ∈ m.exportedFunctions, assigned name e = (type, "execute") ∧ e.2 = executeType

/-- The command of the required name, if one is required, whose first function comes before those
of all others. -/
structure IsFirstCommand (required : Option String) (type : String) : Prop where
  named : ∀ r ∈ required, type = r
  command : m.IsCommand name type
  first : ∀ other, (∀ r ∈ required, other = r) → m.IsCommand name other →
    m.firstPlace name type ≤ m.firstPlace name other

/-- The first function that is assigned to `execute` runs the command. -/
def Unshadowed (type : String) : Prop :=
  ∃ e, m.exportedFunctions.find? (fun e => assigned name e = (type, "execute")) = some e ∧
    e.2 = executeType

/-! ## The types of the shape -/

variable {m name}

theorem Unshadowed.runs {type : String} (h : m.Unshadowed name type) :
    ∃ e ∈ m.exportedFunctions, assigned name e = (type, "execute") ∧ e.2 = executeType := by
  obtain ⟨e, he, ht⟩ := h
  have ha := List.find?_some he
  exact ⟨e, List.mem_of_find?_eq_some he, of_decide_eq_true ha, ht⟩

theorem slots_shape (names : List Binary.LocalName) :
    (m.shape name names).slots = group (m.exportedFunctions.map fun e =>
      ((assigned name e).1, methodOf names (assigned name e).2 e.1 e.2)) := by
  rw [group, List.foldl_map]
  rfl

/-- What the functions of a type gave. -/
theorem resultsOf_functions (names : List Binary.LocalName) (type : String) :
    resultsOf type (m.exportedFunctions.map fun e =>
        ((assigned name e).1, methodOf names (assigned name e).2 e.1 e.2)) =
      (m.functionsOf name type).map fun e => methodOf names (assigned name e).2 e.1 e.2 := by
  rw [resultsOf, List.filter_map, List.map_map]
  rfl

theorem mapM_id_ok {ε α β : Type} {xs : List α} {f : α → Except ε β} {g : α → β}
    (h : ∀ x ∈ xs, f x = .ok (g x)) : (xs.map f).mapM id = .ok (xs.map g) := by
  induction xs with
  | nil => rfl
  | cons x xs ih =>
    rw [List.map_cons, List.mapM_cons, ih fun y hy => h y (List.mem_cons_of_mem _ hy), id,
      h x List.mem_cons_self]
    rfl

theorem mapM_id_error {ε α β : Type} {xs : List α} {f : α → Except ε β} {x : α} (hx : x ∈ xs)
    (h : ∃ e, f x = .error e) : ∃ e, (xs.map f).mapM id = .error e := by
  induction xs with
  | nil => exact absurd hx List.not_mem_nil
  | cons y xs ih =>
    rw [List.map_cons, List.mapM_cons, id]
    cases hy : f y with
    | error e => exact ⟨e, rfl⟩
    | ok b =>
      rcases List.mem_cons.1 hx with rfl | hx
      · obtain ⟨e, he⟩ := h
        exact absurd (hy.symm.trans he) (by simp)
      · obtain ⟨e, he⟩ := ih hx
        exact ⟨e, by rw [he]; rfl⟩

/-- The slot of a type shows it exactly if all its functions can be shown. -/
theorem ofResults_functions (names : List Binary.LocalName) (type : String) :
    ((∀ e ∈ m.functionsOf name type, e.2.Shown) ∧
      Slot.ofResults type ((m.functionsOf name type).map fun e =>
        methodOf names (assigned name e).2 e.1 e.2) = .loaded (m.typeOf name names type)) ∨
    ((¬ ∀ e ∈ m.functionsOf name type, e.2.Shown) ∧ ∃ reason,
      Slot.ofResults type ((m.functionsOf name type).map fun e =>
        methodOf names (assigned name e).2 e.1 e.2) = .failed type reason) := by
  by_cases hs : ∀ e ∈ m.functionsOf name type, e.2.Shown
  · refine .inl ⟨hs, ?_⟩
    rw [Slot.ofResults, mapM_id_ok fun e he => methodOf_shown (hs e he)]
    rfl
  · refine .inr ⟨hs, ?_⟩
    push Not at hs
    obtain ⟨e, he, hn⟩ := hs
    obtain ⟨reason, hr⟩ := mapM_id_error (f := fun e : Export × FuncType =>
      methodOf names (assigned name e).2 e.1 e.2) he (methodOf_not_shown hn)
    exact ⟨reason, by rw [Slot.ofResults, hr]⟩

/-- The types of the shape are those all of whose functions can be shown, in the order in which
they come up. -/
theorem types_shape (names : List Binary.LocalName) :
    (m.shape name names).types =
      ((m.typeNames name).eraseDups.filter fun type =>
        ∀ e ∈ m.functionsOf name type, e.2.Shown).map (m.typeOf name names) := by
  have hnames : (m.exportedFunctions.map fun e => ((assigned name e).1,
      methodOf names (assigned name e).2 e.1 e.2)).map Prod.fst = m.typeNames name :=
    List.map_map
  rw [ModuleShape.types, slots_shape, group_eq, hnames, List.filterMap_map]
  simp only [resultsOf_functions]
  induction (m.typeNames name).eraseDups with
  | nil => rfl
  | cons type rest ih =>
    rw [List.filterMap_cons, List.filter_cons, ih, Function.comp_apply]
    rcases @ofResults_functions m name names type with ⟨hs, ht⟩ | ⟨hs, reason, ht⟩
    · rw [ht, if_pos (decide_eq_true hs)]
      rfl
    · rw [ht, if_neg (by simpa using hs)]

theorem filterMap_scalar?_eq {vs : List ValType}
    (h : ∀ v ∈ vs, v ∈ [ValType.i32, .i64, .f32, .f64]) :
    vs.filterMap ValType.scalar? = [.i32] ↔ vs = [.i32] := by
  have hlen : (vs.filterMap ValType.scalar?).length = vs.length := by
    rw [List.length_filterMap_eq_countP, List.countP_eq_length]
    exact fun v hv => v.isSome_scalar?_iff.2 (h v hv)
  constructor
  · intro hf
    rw [hf] at hlen
    obtain ⟨v, rfl⟩ := List.length_eq_one_iff.1 hlen.symm
    cases v <;> simp_all [ValType.scalar?]
  · rintro rfl
    rfl

/-- The search tries a type by the first function that is assigned to `execute`. -/
theorem isCommand_typeOf {type : String} (names : List Binary.LocalName)
    (hs : ∀ e ∈ m.functionsOf name type, e.2.Shown) :
    (m.typeOf name names type).isCommand = true ↔ m.Unshadowed name type := by
  have hmethod : (m.typeOf name names type).method? "execute" =
      (m.exportedFunctions.find? fun e => assigned name e = (type, "execute")).map fun e =>
        shownMethod names (assigned name e).2 e.1 e.2 := by
    unfold TypeShape.method? typeOf functionsOf
    rw [List.find?_map, List.find?_filter]
    congr 2
    funext e
    simp [shownMethod, Prod.ext_iff]
  rw [TypeShape.isCommand, TypeShape.entry?, hmethod, Unshadowed]
  cases hf : m.exportedFunctions.find? fun e => assigned name e = (type, "execute") with
  | none => simp
  | some e =>
    have ha := List.find?_some hf
    have hshown : e.2.Shown := by
      refine hs e (List.mem_filter.2 ⟨List.mem_of_find?_eq_some hf, ?_⟩)
      rw [of_decide_eq_true ha]
      exact decide_eq_true rfl
    have hp := filterMap_scalar?_eq fun v hv => hshown v (List.mem_append_left _ hv)
    have hr := filterMap_scalar?_eq fun v hv => hshown v (List.mem_append_right _ hv)
    have hsig : (shownMethod names (assigned name e).2 e.1 e.2).hasSignature [.i32] [.i32] = true ↔
        e.2 = executeType := by
      rw [Method.hasSignature, Bool.and_eq_true, beq_iff_eq, beq_iff_eq, shownMethod, hp, hr]
      cases e.2
      simp [executeType]
    simp [Option.filter, hsig]

/-! ## The search -/

/-- What the search looks for: a type of the required name that can be shown and whose first
function that is assigned to `execute` runs it. -/
structure Tried (m : Module) (name : String) (required : Option String) (type : String) : Prop where
  named : ∀ r ∈ required, type = r
  shown : ∀ e ∈ m.exportedFunctions, (assigned name e).1 = type → e.2.Shown
  unshadowed : m.Unshadowed name type

theorem Tried.isCommand {required : Option String} {type : String}
    (h : m.Tried name required type) : m.IsCommand name type :=
  ⟨h.shown, h.unshadowed.runs⟩

theorem all_eq_iff {required : Option String} {type : String} :
    required.all (type = ·) = true ↔ ∀ r ∈ required, type = r := by
  cases required <;> simp

theorem forall_mem_functionsOf {type : String} :
    (∀ e ∈ m.functionsOf name type, e.2.Shown) ↔
      ∀ e ∈ m.exportedFunctions, (assigned name e).1 = type → e.2.Shown := by
  simp [functionsOf]

theorem IsCommand.mem_typeNames {type : String} (h : m.IsCommand name type) :
    type ∈ m.typeNames name := by
  obtain ⟨e, he, ha, -⟩ := h.runs
  exact List.mem_map.2 ⟨e, he, by rw [ha]⟩

/-- The search finds the first type that it looks for. -/
theorem findCommand?_eq_some_iff (names : List Binary.LocalName) (required : Option String)
    {t : TypeShape} :
    (m.shape name names).findCommand? required = some t ↔
      ∃ type, t = m.typeOf name names type ∧ m.Tried name required type ∧
        ∀ other, m.Tried name required other →
          m.firstPlace name type ≤ m.firstPlace name other := by
  have horder : (m.shape name names).types.Pairwise fun t u =>
      m.firstPlace name t.name < m.firstPlace name u.name := by
    rw [types_shape, List.pairwise_map]
    exact (pairwise_eraseDups (m.typeNames name)).filter _
  have hmem (u : TypeShape) : u ∈ (m.shape name names).types ∧
      (decide (required.all (u.name = ·) = true ∧ u.isCommand = true)) = true ↔
        ∃ type, u = m.typeOf name names type ∧ m.Tried name required type := by
    rw [types_shape, List.mem_map, decide_eq_true_iff]
    constructor
    · rintro ⟨⟨type, ht, rfl⟩, hr, hc⟩
      have hs := of_decide_eq_true (List.mem_filter.1 ht).2
      refine ⟨type, rfl, ?_, forall_mem_functionsOf.1 hs, (isCommand_typeOf names hs).1 hc⟩
      exact all_eq_iff.1 hr
    · rintro ⟨type, rfl, h⟩
      have hs := forall_mem_functionsOf.2 h.shown
      refine ⟨⟨type, List.mem_filter.2 ⟨?_, decide_eq_true hs⟩, rfl⟩, ?_,
        (isCommand_typeOf names hs).2 h.unshadowed⟩
      · exact List.mem_eraseDups.2 h.isCommand.mem_typeNames
      · exact all_eq_iff.2 h.named
  rw [ModuleShape.findCommand?, List.find?_filter, find?_eq_some_iff_least horder, ← and_assoc,
    hmem]
  constructor
  · rintro ⟨⟨type, rfl, h⟩, hleast⟩
    refine ⟨type, rfl, h, fun other ho => ?_⟩
    obtain ⟨hu, hp⟩ := (hmem _).2 ⟨other, rfl, ho⟩
    exact hleast _ hu hp
  · rintro ⟨type, rfl, h, hleast⟩
    refine ⟨⟨type, rfl, h⟩, fun u hu hp => ?_⟩
    obtain ⟨other, rfl, ho⟩ := (hmem u).1 ⟨hu, hp⟩
    exact hleast other ho

/-- The search finds this type. -/
def FindsCommand (m : Module) (name : String) (names : List Binary.LocalName)
    (required : Option String) (type : String) : Prop :=
  (m.shape name names).findCommand? required = some (m.typeOf name names type)

theorem findsCommand_iff {names : List Binary.LocalName} {required : Option String}
    {type : String} :
    m.FindsCommand name names required type ↔ m.Tried name required type ∧
      ∀ other, m.Tried name required other → m.firstPlace name type ≤ m.firstPlace name other := by
  rw [FindsCommand, findCommand?_eq_some_iff]
  constructor
  · rintro ⟨other, he, h⟩
    obtain rfl : type = other := congrArg TypeShape.name he
    exact h
  · intro h
    exact ⟨type, rfl, h⟩

/-- Among types that come up, the first place tells them apart. -/
theorem eq_of_firstPlace_le {type other : String} (ht : type ∈ m.typeNames name)
    (h : m.firstPlace name type ≤ m.firstPlace name other)
    (h' : m.firstPlace name other ≤ m.firstPlace name type) : type = other :=
  (List.idxOf_inj ht).1 (Nat.le_antisymm h h')

/-- There is a first one among types that come up. -/
theorem exists_first {P : String → Prop} {type : String} (h : P type) :
    ∃ first, P first ∧ ∀ other, P other → m.firstPlace name first ≤ m.firstPlace name other := by
  classical
  have hsome : ∃ n, ∃ type, P type ∧ m.firstPlace name type = n := ⟨_, type, h, rfl⟩
  obtain ⟨n, ⟨first, hp, rfl⟩, hleast⟩ := Nat.findX hsome
  exact ⟨first, hp, fun other ho => Nat.le_of_not_lt fun hlt => hleast _ hlt ⟨other, ho, rfl⟩⟩

/-- Exported functions of one name are the same. -/
theorem eq_of_exportName {e f : Export × FuncType} (hv : m.isValid)
    (he : e ∈ m.exportedFunctions) (hf : f ∈ m.exportedFunctions) (h : e.1.name = f.1.name) :
    e = f := by
  have hmem : ∀ {e : Export × FuncType}, e ∈ m.exportedFunctions →
      e.1 ∈ m.exports ∧ m.functionType? e.1.index = some e.2 := by
    rintro ⟨e, t⟩ he
    obtain ⟨x, hx, hg⟩ := List.mem_filterMap.1 he
    split at hg
    · obtain ⟨t, ht, hxe⟩ := Option.map_eq_some_iff.1 hg
      cases hxe
      exact ⟨hx, ht⟩
    · cases hg
  obtain ⟨he, het⟩ := hmem he
  obtain ⟨hf, hft⟩ := hmem hf
  have hx : e.1 = f.1 := List.inj_on_of_nodup_map (nodup_exports hv) he hf h
  rw [hx] at het
  exact Prod.ext hx (Option.some.inj (het.symm.trans hft))

/-- A valid module shadows no command if it does not export both a function `execute` and the
`execute` of a type of its own name. -/
theorem IsCommand.unshadowed {type : String} (h : m.IsCommand name type) (hv : m.isValid)
    (hone : ¬ ("execute" ∈ m.exportedFunctions.map (fun e => e.1.name) ∧
      name ++ "." ++ "execute" ∈ m.exportedFunctions.map fun e => e.1.name)) :
    m.Unshadowed name type := by
  obtain ⟨e, he, ha, ht⟩ := h.runs
  have hsome : (m.exportedFunctions.find? fun e => assigned name e = (type, "execute")).isSome :=
    List.find?_isSome.2 ⟨e, he, decide_eq_true ha⟩
  obtain ⟨f, hf⟩ := Option.isSome_iff_exists.1 hsome
  refine ⟨f, hf, ?_⟩
  have hmem := List.mem_of_find?_eq_some hf
  have hfa := List.find?_some hf
  replace hfa : assigned name f = (type, "execute") := of_decide_eq_true hfa
  by_cases hn : e.1.name = f.1.name
  · rw [← eq_of_exportName hv he hmem hn, ht]
  · refine absurd ?_ hone
    rcases splitExport_shared hn ha hfa with ⟨h₁, h₂⟩ | ⟨h₁, h₂⟩
    · exact ⟨List.mem_map.2 ⟨e, he, h₁⟩, List.mem_map.2 ⟨f, hmem, h₂⟩⟩
    · exact ⟨List.mem_map.2 ⟨f, hmem, h₁⟩, List.mem_map.2 ⟨e, he, h₂⟩⟩

/-- Whatever type is asked for, the search finds it exactly if it is the first command. -/
def AgreesOnCommands (m : Module) (name : String) (names : List Binary.LocalName)
    (required : Option String) : Prop :=
  ∀ type, m.FindsCommand name names required type ↔ m.IsFirstCommand name required type

theorem agreesOnCommands_of_unshadowed {names : List Binary.LocalName} {required : Option String}
    (h : ∀ type, m.IsFirstCommand name required type → m.Unshadowed name type) :
    m.AgreesOnCommands name names required := by
  intro type
  rw [findsCommand_iff]
  constructor
  · rintro ⟨ht, hleast⟩
    -- the first command is one that the search looks for, so it is this one
    obtain ⟨first, ⟨hnamed, hcommand⟩, hfirst⟩ := @exists_first m name
      (fun type => (∀ r ∈ required, type = r) ∧ m.IsCommand name type) type
      ⟨ht.named, ht.isCommand⟩
    have hf : m.IsFirstCommand name required first :=
      ⟨hnamed, hcommand, fun other hn hc => hfirst other ⟨hn, hc⟩⟩
    obtain rfl : type = first := by
      refine eq_of_firstPlace_le ht.isCommand.mem_typeNames (hleast first ?_)
        (hfirst type ⟨ht.named, ht.isCommand⟩)
      exact ⟨hnamed, hcommand.shown, h first hf⟩
    exact hf
  · intro hf
    exact ⟨⟨hf.named, hf.command.shown, h type hf⟩,
      fun other ho => hf.first other ho.named ho.isCommand⟩

/-- **Finding the command.** The search finds the first command, and nothing if there is none, if
and only if no other function that is assigned to `execute` of that command stands before the one
that runs it. This is so whenever a valid module does not export both a function `execute` and the
`execute` of a type of its own name. -/
theorem finds_first_command_iff (m : Module) (name : String) (names : List Binary.LocalName)
    (required : Option String) :
    (m.AgreesOnCommands name names required ↔
      ∀ type, m.IsFirstCommand name required type → m.Unshadowed name type) ∧
    (m.isValid →
      ¬ ("execute" ∈ m.exportedFunctions.map (fun e => e.1.name) ∧
        name ++ "." ++ "execute" ∈ m.exportedFunctions.map fun e => e.1.name) →
      m.AgreesOnCommands name names required) := by
  refine ⟨⟨fun h type hf => ?_, agreesOnCommands_of_unshadowed⟩, fun hv hone => ?_⟩
  · exact (findsCommand_iff.1 ((h type).2 hf)).1.unshadowed
  · exact agreesOnCommands_of_unshadowed fun type hf => hf.command.unshadowed hv hone

/-- A module that exports a function `execute` that takes nothing before the `Tool.execute` that
runs a command. -/
def shadowedCommandBinary : List UInt8 := [
    0x00, 0x61, 0x73, 0x6d, 0x01, 0x00, 0x00, 0x00, 0x01, 0x09, 0x02, 0x60, 0x00, 0x00, 0x60, 0x01,
    0x7f, 0x01, 0x7f, 0x03, 0x03, 0x02, 0x00, 0x01, 0x07, 0x1a, 0x02, 0x07, 0x65, 0x78, 0x65, 0x63,
    0x75, 0x74, 0x65, 0x00, 0x00, 0x0c, 0x54, 0x6f, 0x6f, 0x6c, 0x2e, 0x65, 0x78, 0x65, 0x63, 0x75,
    0x74, 0x65, 0x00, 0x01, 0x0a, 0x09, 0x02, 0x02, 0x00, 0x0b, 0x04, 0x00, 0x41, 0x00, 0x0b]

/-- If the module is named like the type, its command is not found. -/
theorem not_found_shadowedCommand :
    ∃ c, Compiled.compile? "Tool" shadowedCommandBinary = some c ∧
      c.module.IsFirstCommand "Tool" none "Tool" ∧ c.shape.findCommand? none = none := by
  have h : (Compiled.compile? "Tool" shadowedCommandBinary).map (fun c =>
      (c.module.exportedFunctions, c.shape.findCommand? none)) =
      some ([(⟨"execute", .func, 0⟩, ⟨[], []⟩), (⟨"Tool.execute", .func, 1⟩, executeType)],
        none) := by
    decide +kernel
  obtain ⟨c, hc, heq⟩ := Option.map_eq_some_iff.1 h
  obtain ⟨hfunctions, hfound⟩ := Prod.mk.inj heq
  refine ⟨c, hc, ⟨by simp, ⟨?_, ?_⟩, ?_⟩, hfound⟩
  · rw [hfunctions]
    intro e he _
    simp only [List.mem_cons, List.not_mem_nil, or_false] at he
    rcases he with rfl | rfl <;> decide
  · rw [hfunctions]
    exact ⟨_, List.mem_cons_of_mem _ List.mem_cons_self, by decide +kernel, rfl⟩
  · intro other _ _
    have hzero : c.module.firstPlace "Tool" "Tool" = 0 := by
      rw [firstPlace, typeNames, hfunctions]
      decide +kernel
    rw [hzero]
    exact Nat.zero_le _

end Module

end Wasm

end ScriptHost

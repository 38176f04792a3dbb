import ScriptHost.Proofs.Lua.Scope

/-!
# What interpreters keep between runs

Between runs, an interpreter keeps the tables of its libraries, the state of its random numbers and
the reserved names of its scope. As long as these are as they are in a new interpreter
(`Interpreter.Untouched`), the store in which a script begins holds what that of a new one holds
and, behind it, things that nothing refers to (`Interpreter.prepared_renamed`): scripts do not tell
the two apart.
-/

namespace ScriptHost.Lua

open Interpreter (isReserved)

/-! ## What stands for itself -/

/-- A function that holds nothing of a store. -/
def Builtin.isFixed : Builtin → Bool
  | nextMatch _ _ _ _ | wrapped _ | printer _ _ | silent _ => false
  | _ => true

/-- A value that stands for the same in every store. -/
def Value.isFixed : Value → Bool
  | nil | null | bool _ | number _ | string _ => true
  | builtin f => f.isFixed
  | table a => a < Interpreter.fixedTables
  | closure _ | thread _ | failure _ => false

def Table.isFixed (t : Table) : Bool :=
  t.items.all Value.isFixed && t.fields.all (fun field => field.1.isFixed && field.2.isFixed) &&
    t.metatable.all fun a => a < Interpreter.fixedTables

section

variable {ρ : Renaming}

theorem Builtin.rename_of_isFixed {f : Builtin} (h : f.isFixed) : f.rename ρ = f := by
  cases f <;> first | rfl | cases h

theorem Value.rename_of_isFixed {v : Value} (h : v.isFixed) : v.rename ρ = v := by
  cases v with
  | builtin f => exact congrArg builtin (Builtin.rename_of_isFixed h)
  | table a => exact congrArg table (ρ.tables_fixed a (decide_eq_true_iff.1 h))
  | closure _ | thread _ | failure _ => cases h
  | _ => rfl

theorem Table.rename_of_isFixed {t : Table} (h : t.isFixed) : t.rename ρ = t := by
  obtain ⟨items, fields, metatable⟩ := t
  simp only [isFixed, Bool.and_eq_true, Array.all_eq_true', Option.all_eq_true] at h
  obtain ⟨⟨hi, hf⟩, hm⟩ := h
  have hitems : items.map (Value.rename ρ) = items := by
    refine (Array.map_congr_left fun v hv => ?_).trans (Array.map_id _)
    exact Value.rename_of_isFixed (hi v hv)
  have hfields : fields.map (renamePair ρ) = fields := by
    refine (Array.map_congr_left fun field hm => ?_).trans (Array.map_id _)
    obtain ⟨hk, hv⟩ := hf field hm
    exact Prod.ext (Value.rename_of_isFixed hk) (Value.rename_of_isFixed hv)
  have hmetatable : metatable.map ρ.tables = metatable := by
    cases metatable with
    | none => rfl
    | some a => exact congrArg some (ρ.tables_fixed a (by simpa using hm a rfl))
  rw [rename, hitems, hfields, hmetatable]

end

/-- The reserved keys of a table, in their order. -/
def Table.reservedNames (t : Table) : List Value :=
  (t.fields.toList.map (·.1)).filter isReserved

/-! ## What is made for an invocation -/

namespace Interpreter

variable {ρ : Renaming} {s t : Store}

end Interpreter

/-! ## Behind what runs have left -/

/-- What a new interpreter holds at first stays in its place, and all that comes later comes behind
what the store holds. Sinks are renamed as given. -/
def Renaming.behind (s : Store) (σ : Nat → Nat) (hσ : Function.Injective σ) :
    Renaming where
  tables := shift Interpreter.fixedTables s.tables.size
  closures := shift 0 s.closures.size
  cells := shift Store.fixedCells s.cells.size
  threads := shift 1 s.threads.size
  failures := shift 0 s.failures.size
  serials := shift 0 s.serial
  sinks := σ
  tables_injective := shift_injective _ _
  closures_injective := shift_injective _ _
  cells_injective := shift_injective _ _
  threads_injective := shift_injective _ _
  failures_injective := shift_injective _ _
  serials_injective := shift_injective _ _
  sinks_injective := hσ
  tables_fixed _ ha := shift_lt _ ha
  cells_fixed _ ha := shift_lt _ ha
  threads_main := shift_lt _ Nat.one_pos

namespace Interpreter

/-- What outlives runs is as in a new interpreter, but for who prints and for the values of the
reserved names that every run sets itself. -/
structure Untouched (s : Store) : Prop where
  tables : ∀ a < fixedTables, a ≠ printersAddress → a ≠ scopeAddress →
    s.table a = (freshStore .standard).table a
  random : ∀ a < Store.fixedCells, s.cell a = (freshStore .standard).cell a
  printers : ∃ fields, s.table printersAddress =
    { fields, metatable := some printersMetaAddress } ∧
      (fields = #[] ∨ fields.toList.map (·.1) = [.string (Bytes.ofString "print")])
  scope : (s.table scopeAddress).metatable = some scopeMetaAddress
  names : (s.table scopeAddress).reservedNames = [] ∨
    (s.table scopeAddress).reservedNames = ownNames.map fun name => .string (Bytes.ofString name)

/-- A printer takes the place of one that is there. -/
theorem setField_printer {t : Table} {fields : Array (Value × Value)}
    (ht : t = { fields, metatable := some printersMetaAddress })
    (hf : fields = #[] ∨ fields.toList.map (·.1) = [.string (Bytes.ofString "print")])
    (f : Builtin) : t.setField (.string (Bytes.ofString "print")) (.builtin f) =
      { fields := #[(.string (Bytes.ofString "print"), .builtin f)]
        metatable := some printersMetaAddress } := by
  subst ht
  exact @Table.withFields_eq _ [("print", .builtin f)] (by simp) (by simp [Value.isNil]) hf

section

variable {s : Store} {σ : Nat → Nat} (hσ : Function.Injective σ)

/-- A script begins with its own values set in the scope that there is. -/
theorem prepared_eq (hf : s.Founded) (v : Invocation) (sink : Nat) :
    prepared s v sink = (bindings (withPrinter (begun s) sink) v).1.setTable scopeAddress
      ((s.table scopeAddress).withFields (bindings (withPrinter (begun s) sink) v).2) := by
  obtain ⟨hw, -, hscope⟩ := withPrinter_begun hf sink
  obtain ⟨more, host, a, hb, -⟩ := bindings_eq (withPrinter (begun s) sink) v
  have hlt : scopeAddress < (withPrinter (begun s) sink).tables.size :=
    Nat.lt_of_lt_of_le (by decide) hw.tables
  have hsame : (bindings (withPrinter (begun s) sink) v).1.table scopeAddress =
      s.table scopeAddress := by
    rw [hb]
    exact (Store.table_extended_of_lt _ more hlt).trans hscope
  rw [← hsame]
  exact Store.modifyTable_eq _ _ _

theorem cell_modifyTable (s : Store) (a : Nat) (f : Table → Table) (b : Nat) :
    (s.modifyTable a f).cell b = s.cell b := by
  rw [Store.modifyTable_eq]
  rfl

/-- Stripping the scope leaves its reserved names. -/
theorem Untouched.stripScope {i : Interpreter} (h : Untouched i.store) :
    Untouched i.stripScope.1.store := by
  have hscope : i.stripScope.1.scope =
      { i.scope with
        items := #[], fields := i.scope.fields.filter fun field => isReserved field.1 } :=
    Store.table_modifyTable_self _ _ _
  have hother {a : Nat} (ha : a ≠ scopeAddress) :
      i.stripScope.1.store.table a = i.store.table a := Store.table_modifyTable_of_ne _ ha _
  have hnames : i.stripScope.1.scope.reservedNames = i.scope.reservedNames := by
    rw [hscope]
    simp [Table.reservedNames, List.filter_map, Function.comp_def]
  exact {
    tables := fun a ha hne hne' => (hother hne').trans (h.tables a ha hne hne')
    random := fun a ha => (cell_modifyTable _ _ _ _).trans (h.random a ha)
    printers := by
      rw [hother (by decide)]
      exact h.printers
    scope := (congrArg Table.metatable hscope).trans h.scope
    names := h.names.imp hnames.trans hnames.trans }

/-- A printer that writes nowhere takes the place of that of a run. -/
theorem Untouched.detach {i : Interpreter} (h : Untouched i.store) (hf : i.store.Founded) :
    Untouched i.detach.store := by
  obtain ⟨-, hscope⟩ := detach_spec hf
  obtain ⟨fields, hp, hf⟩ := h.printers
  have hother {a : Nat} (ha : a ≠ printersAddress) :
      i.detach.store.table a = i.store.table a := Store.table_modifyTable_of_ne _ ha _
  exact {
    tables := fun a ha hne hne' => (hother hne).trans (h.tables a ha hne hne')
    random := fun a ha => (cell_modifyTable _ _ _ _).trans (h.random a ha)
    printers := ⟨_, (Store.table_modifyTable_self _ _ _).trans (setField_printer hp hf _), .inr rfl⟩
    scope := (congrArg Table.metatable hscope).trans h.scope
    names := h.names.imp (congrArg Table.reservedNames hscope).trans
      (congrArg Table.reservedNames hscope).trans }

/-- An interpreter that a run has left untouched goes back untouched. -/
theorem Untouched.afterRun {i : Interpreter} (h : Untouched i.store) (hf : i.store.Founded) :
    Untouched (i.afterRun false).1.store :=
  h.stripScope.detach (founded_stripScope hf)

end

end Interpreter

end ScriptHost.Lua

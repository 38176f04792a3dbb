import ScriptHost.Handler.Lua
import ScriptHost.Proofs.Lua.Fields
import ScriptHost.Proofs.Lua.Incoming

/-!
# The scope between runs

A script begins with values of its own under reserved names (`Interpreter.prepared_spec`). What it
leaves in the scope stays there if globals are to be kept; otherwise only reserved names stay
(`Interpreter.afterRun_spec`).
-/

namespace ScriptHost.Lua

open Interpreter (isReserved)

/-! ## Reserved keys -/

namespace Table

/-- What stands under keys that are not reserved, in its order. -/
def unreserved (t : Table) : List (Value × Value) := t.pairs.filter fun pair => !isReserved pair.1

/-- The tables have the same values under the same keys, but for those that are reserved, and a walk
over either comes to them in the same order. -/
structure SameUnreserved (t u : Table) : Prop where
  pairs : t.unreserved = u.unreserved
  get : ∀ key, ¬ isReserved key → t.get key = u.get key

/-- All keys of the table are reserved. -/
structure Bare (t : Table) : Prop where
  pairs : t.unreserved = []
  get : ∀ key, ¬ isReserved key → t.get key = .nil

/-- The table has nothing but fields, and their keys are reserved, also of those that are nil. -/
structure Stripped (t : Table) : Prop where
  items : t.items = #[]
  fields : ∀ field ∈ t.fields, isReserved field.1

theorem SameUnreserved.refl (t : Table) : t.SameUnreserved t := ⟨rfl, fun _ _ => rfl⟩

theorem SameUnreserved.trans {t u w : Table} (h : t.SameUnreserved u) (h' : u.SameUnreserved w) :
    t.SameUnreserved w :=
  ⟨h.pairs.trans h'.pairs, fun key hk => (h.get key hk).trans (h'.get key hk)⟩

theorem SameUnreserved.bare {t u : Table} (h : t.SameUnreserved u) (hu : u.Bare) : t.Bare :=
  ⟨h.pairs.trans hu.pairs, fun key hk => (h.get key hk).trans (hu.get key hk)⟩

theorem unreserved_eq (t : Table) : t.unreserved =
    (((t.items.toList.zipIdx 1).map fun x => (Value.ofNat x.2, x.1)) ++ t.fields.toList).filter
      fun pair => !isReserved pair.1 && !pair.2.isNil := by
  rw [unreserved, pairs_eq, List.filter_filter]

/-- Setting a reserved field changes nothing else. -/
theorem sameUnreserved_setField (t : Table) {name : Bytes} (hr : isReserved (.string name))
    (v : Value) : (t.setField (.string name) v).SameUnreserved t where
  pairs := by
    rw [unreserved_eq, unreserved_eq, items_setField, List.filter_append, List.filter_append,
      filter_setField]
    simp [hr]
  get key hk := by
    refine t.get_setField_of_ne ?_ v
    rintro rfl
    exact hk hr

theorem sameUnreserved_withFields (t : Table) {fields : List (String × Value)}
    (hr : ∀ field ∈ fields, isReserved (.string (Bytes.ofString field.1))) :
    (t.withFields fields).SameUnreserved t := by
  induction fields generalizing t with
  | nil => exact .refl t
  | cons field rest ih =>
    have hfirst := t.sameUnreserved_setField (hr field List.mem_cons_self) field.2
    exact (ih _ fun field hf => hr field (List.mem_cons_of_mem _ hf)).trans hfirst

theorem exists_string_of_isReserved {key : Value} (h : isReserved key) :
    ∃ name, key = .string name := by
  cases key with
  | string name => exact ⟨name, rfl⟩
  | _ => cases h

theorem Stripped.bare {t : Table} (h : t.Stripped) : t.Bare where
  pairs := by
    rw [unreserved_eq, h.items, List.filter_eq_nil_iff]
    intro pair hp
    simp [h.fields pair (by simpa using hp)]
  get key hk := by
    have hfield : t.field key = .nil := by
      rw [field_eq, List.filter_eq_nil_iff.2]
      · rfl
      · intro field hm he
        have hr := h.fields field (by simpa using hm)
        obtain ⟨name, hn⟩ := exists_string_of_isReserved hr
        rw [hn] at he hr
        exact hk (Value.string_rawEquals.1 he ▸ hr)
    rw [get, hfield]
    split
    · simp [h.items]
    · rfl

end Table

/-! ## What a script begins with -/

namespace Interpreter

/-- The scope has the values of the invocation under their names: itself, texts, and new tables for
the handles and for the results. The store has had `size` tables before. -/
structure Begins (s : Store) (size : Nat) (v : Invocation) : Prop where
  self : (s.table scopeAddress).getString "_G" = .table scopeAddress
  name : (s.table scopeAddress).getString "__name__" = .string "__main__"
  file : (s.table scopeAddress).getString "__file__" = .string (Bytes.ofString v.path)
  debug : (s.table scopeAddress).getString "__debug__" = .bool v.debug
  host : s.Shows size ((s.table scopeAddress).getString "__host__") v.handles.toJson
  result : ∃ a, (s.table scopeAddress).getString "__result__" = .table a ∧
    size ≤ a ∧ a < s.tables.size ∧ s.table a = {}
  command : ∀ binding ∈ v.command.bindings v.path,
    (s.table scopeAddress).getString (Bytes.ofString binding.1) =
      .string (Bytes.ofString binding.2)

/-- The fields that are set for an invocation, with the values for the handles and the results. -/
def fieldsOf (host result : Value) (v : Invocation) : List (String × Value) :=
  let text (t : String) : Value := .string (Bytes.ofString t)
  [("_G", .table scopeAddress), ("__name__", text "__main__"), ("__file__", text v.path),
    ("__debug__", .bool v.debug), ("__host__", host), ("__result__", result)] ++
    (v.command.bindings v.path).map fun (name, t) => (name, text t)

/-- The names of these fields, whatever the invocation. -/
def ownNames : List String :=
  ["_G", "__name__", "__file__", "__debug__", "__host__", "__result__", "__commandpath__",
    "__alternatecommandpath__", "__commandname__", "__commandbundle__", "__commandextension__",
    "__commanduniqueid__"]

theorem map_fst_fieldsOf (host result : Value) (v : Invocation) :
    (fieldsOf host result v).map (·.1) = ownNames := rfl

theorem isReserved_ownNames : ∀ name ∈ ownNames, isReserved (.string (Bytes.ofString name)) := by
  decide

theorem nodup_ownNames : (ownNames.map Bytes.ofString).Nodup := by decide

/-- The values of an invocation are made of new tables: first those of the handles, and behind them
the one for the results. -/
theorem bindings_apart (s : Store) (v : Invocation) :
    ∃ more host, bindings s v =
        (s.extended (more.push {}), fieldsOf host (.table (s.tables.size + more.size)) v) ∧
      (s.extended more).Shows s.tables.size host v.handles.toJson := by
  obtain ⟨more, hs, hv⟩ := s.ofJson_shows v.handles.toJson
  obtain ⟨hstore, hplace, -⟩ := s.extended_push more {}
  refine ⟨more, (s.ofJson v.handles.toJson).2, ?_, hv⟩
  rw [← hs] at hstore hplace
  rw [bindings, ← hstore, ← hplace]
  rfl

theorem bindings_eq (s : Store) (v : Invocation) :
    ∃ more host a, bindings s v = (s.extended more, fieldsOf host (.table a) v) ∧
      (s.extended more).Shows s.tables.size host v.handles.toJson ∧
      s.tables.size ≤ a ∧ a < (s.extended more).tables.size ∧ (s.extended more).table a = {} := by
  obtain ⟨more, host, hb, hv⟩ := bindings_apart s v
  obtain ⟨-, -, hlt, ht⟩ := s.extended_push more {}
  refine ⟨more.push {}, host, s.tables.size + more.size, hb, ?_, Nat.le_add_right _ _, hlt, ht⟩
  rw [Array.push_eq_append, ← Store.extended_extended]
  exact hv.mono (Store.keeps_extended _ _ _) (Nat.le_refl _)

/-- Setting a field of a table that is there. -/
theorem setField_spec {s : Store} (h : s.Founded) {a : Nat} (ha : a < fixedTables) (name : String)
    (v : Value) :
    (setField s a name v).Founded ∧ (setField s a name v).tables.size = s.tables.size ∧
      ∀ b, b ≠ a → (setField s a name v).table b = s.table b := by
  have hlt : a < s.tables.size := Nat.lt_of_lt_of_le ha h.tables
  have hsize := s.size_tables_modifyTable hlt (·.setField (.string (Bytes.ofString name)) v)
  exact ⟨h.modifyTable hlt _, hsize, fun b hb => s.table_modifyTable_of_ne hb _⟩

/-- The store as the values of an invocation are made in it: nothing has changed in the scope. -/
theorem withPrinter_begun {s : Store} (h : s.Founded) (sink : Nat) :
    (withPrinter (begun s) sink).Founded ∧
      (withPrinter (begun s) sink).tables.size = s.tables.size ∧
      (withPrinter (begun s) sink).table scopeAddress = s.table scopeAddress := by
  have hbegun : Store.Founded { begun s with serial := (begun s).serial + 1 } := by
    refine ⟨h.tables, h.cells, ?_⟩
    show Store.mainThread < (Store.setAt s.threads Store.mainThread .running).size
    rw [size_setAt]
    omega
  obtain ⟨hf, hsize, htable⟩ := setField_spec hbegun (by decide) "print"
    (.builtin (.printer sink (begun s).serial)) (a := printersAddress)
  exact ⟨hf, hsize, htable scopeAddress (by decide)⟩

/-- **What a script begins with.** Its own values, and of what stood in the scope before everything
that is not reserved. -/
theorem prepared_spec {s : Store} (h : s.Founded) (v : Invocation) (sink : Nat) :
    (prepared s v sink).Founded ∧ Begins (prepared s v sink) s.tables.size v ∧
      ((prepared s v sink).table scopeAddress).SameUnreserved (s.table scopeAddress) := by
  obtain ⟨hf, hsize, hscope⟩ := withPrinter_begun h sink
  obtain ⟨more, host, a, hb, hhost, hle, hlt, ht⟩ := bindings_eq (withPrinter (begun s) sink) v
  have hp : prepared s v sink = ((withPrinter (begun s) sink).extended more).modifyTable
      scopeAddress (·.withFields (fieldsOf host (.table a) v)) := by
    rw [prepared, hb]
  generalize withPrinter (begun s) sink = s₀ at *
  have hplace : scopeAddress < s₀.tables.size := Nat.lt_of_lt_of_le (by decide) hf.tables
  have hext : scopeAddress < (s₀.extended more).tables.size :=
    Nat.lt_of_lt_of_le hplace (Store.keeps_extended 0 s₀ more).size
  have htable : (prepared s v sink).table scopeAddress =
      (s.table scopeAddress).withFields (fieldsOf host (.table a) v) := by
    rw [hp, Store.table_modifyTable_self, s₀.table_extended_of_lt more hplace, hscope]
  have hkeeps : Store.Keeps s₀.tables.size (s₀.extended more) (prepared s v sink) := by
    rw [hp]
    refine ⟨Nat.le_of_eq (Store.size_tables_modifyTable hext _).symm, fun b hb _ => ?_⟩
    exact Store.table_modifyTable_of_ne _ (Nat.ne_of_gt (Nat.lt_of_lt_of_le hplace hb)) _
  have own (field : String × Value) (hm : field ∈ fieldsOf host (.table a) v) :
      ((prepared s v sink).table scopeAddress).getString (Bytes.ofString field.1) = field.2 := by
    rw [htable]
    refine Table.getString_withFields _ ?_ hm
    exact nodup_ownNames
  refine ⟨?_, ?_, ?_⟩
  · rw [hp]
    exact Store.Founded.modifyTable
      ⟨Nat.le_trans hf.tables (Store.keeps_extended 0 s₀ more).size, hf.cells, hf.threads⟩ hext _
  · have hresult : a < (prepared s v sink).tables.size := Nat.lt_of_lt_of_le hlt hkeeps.size
    exact {
      self := own ("_G", _) (by simp [fieldsOf])
      name := own ("__name__", _) (by simp [fieldsOf])
      file := own ("__file__", _) (by simp [fieldsOf])
      debug := own ("__debug__", _) (by simp [fieldsOf])
      host := by
        rw [own ("__host__", host) (by simp [fieldsOf]), ← hsize]
        exact hhost.mono hkeeps (Nat.le_refl _)
      result := ⟨a, own ("__result__", .table a) (by simp [fieldsOf]), hsize ▸ hle,
        hresult, (hkeeps.table a hle hlt).trans ht⟩
      command := fun binding hm => own (binding.1, .string (Bytes.ofString binding.2)) (by
          rw [fieldsOf, List.mem_append, List.mem_map]
          exact .inr ⟨binding, hm, rfl⟩) }
  · rw [htable]
    refine Table.sameUnreserved_withFields _ fun field hm => isReserved_ownNames field.1 ?_
    rw [← map_fst_fieldsOf host (.table a) v]
    exact List.mem_map_of_mem hm

/-! ## Between runs -/

theorem store_stripScope (i : Interpreter) :
    i.stripScope.1.store = i.store.modifyTable scopeAddress fun t =>
      { t with items := #[], fields := i.scope.fields.filter fun field => isReserved field.1 } :=
  rfl

/-- Stripping leaves reserved keys only. -/
theorem stripped_stripScope (i : Interpreter) : i.stripScope.1.scope.Stripped := by
  rw [scope, store_stripScope, Store.table_modifyTable_self]
  exact ⟨rfl, fun field hm => (Array.mem_filter.1 hm).2⟩

theorem founded_stripScope {i : Interpreter} (h : i.store.Founded) :
    i.stripScope.1.store.Founded := by
  have hlt : scopeAddress < i.store.tables.size := Nat.lt_of_lt_of_le (by decide) h.tables
  rw [store_stripScope]
  exact h.modifyTable hlt _

theorem detach_spec {i : Interpreter} (h : i.store.Founded) :
    i.detach.store.Founded ∧ i.detach.scope = i.scope := by
  have hnext : Store.Founded { i.store with serial := i.store.serial + 1 } :=
    ⟨h.tables, h.cells, h.threads⟩
  obtain ⟨hf, -, htable⟩ := setField_spec hnext (by decide) "print"
    (.builtin (.silent i.store.serial)) (a := printersAddress)
  exact ⟨hf, htable scopeAddress (by decide)⟩

/-- **What is left after a run.** With globals to be kept, the scope as it was when the run stopped;
otherwise nothing that is not reserved. -/
theorem afterRun_spec {i : Interpreter} (h : i.store.Founded) (keepGlobals : Bool) :
    (i.afterRun keepGlobals).1.store.Founded ∧ (i.afterRun keepGlobals).1.id = i.id ∧
      if keepGlobals then (i.afterRun keepGlobals).1.scope = i.scope
      else (i.afterRun keepGlobals).1.scope.Stripped := by
  cases keepGlobals with
  | true =>
    obtain ⟨hf, hscope⟩ := detach_spec h
    exact ⟨hf, rfl, hscope⟩
  | false =>
    obtain ⟨hf, hscope⟩ := detach_spec (founded_stripScope h)
    refine ⟨hf, rfl, ?_⟩
    show (i.stripScope.1.detach).scope.Stripped
    rw [hscope]
    exact i.stripped_stripScope

/-- A new interpreter has nothing but reserved keys in its scope: none at all. -/
theorem new_spec (id : Nat) (document : String) (layout : Layout) :
    (new id document layout).store.Founded ∧ (new id document layout).scope.Stripped := by
  have hsize : (new id document layout).store.tables.size = fixedTables := rfl
  have hscope : (new id document layout).scope = { metatable := some scopeMetaAddress } := rfl
  refine ⟨⟨Nat.le_of_eq hsize.symm, Nat.le_of_eq rfl, Nat.one_pos⟩, ?_⟩
  · rw [hscope]
    exact ⟨rfl, by simp⟩

end Interpreter

end ScriptHost.Lua

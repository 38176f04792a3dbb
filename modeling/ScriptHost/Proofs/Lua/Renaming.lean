import ScriptHost.Lua.Interpreter

/-!
# Renaming what a store holds

Two stores may hold the same things at different places. A renaming says where the things of the
one stand in the other. Values are renamed with it, and what plain tables do with values does not
depend on where things stand (`Table.get_rename`, `Table.set_rename`, `Table.next?_rename`).
-/

namespace ScriptHost.Lua

/-- The tables that an interpreter is made with; code refers to some of them by their places. -/
def Interpreter.fixedTables : Nat := Interpreter.scopeMetaAddress + 1

/-- The cells that a store begins with. -/
def Store.fixedCells : Nat := Maths.randomCells.length

/-- Where things stand in another store, kind by kind. What code refers to by its place stays
there. -/
structure Renaming where
  tables : Nat → Nat
  closures : Nat → Nat
  cells : Nat → Nat
  threads : Nat → Nat
  failures : Nat → Nat
  serials : Nat → Nat
  sinks : Nat → Nat
  tables_injective : Function.Injective tables
  closures_injective : Function.Injective closures
  cells_injective : Function.Injective cells
  threads_injective : Function.Injective threads
  failures_injective : Function.Injective failures
  serials_injective : Function.Injective serials
  sinks_injective : Function.Injective sinks
  tables_fixed : ∀ a < Interpreter.fixedTables, tables a = a
  cells_fixed : ∀ a < Store.fixedCells, cells a = a
  threads_main : threads Store.mainThread = Store.mainThread

/-! ## Values -/

def Builtin.rename (ρ : Renaming) : Builtin → Builtin
  | base f => base f
  | string f => string f
  | table f => table f
  | math f => math f
  | coroutine f => coroutine f
  | utf8 f => utf8 f
  | system f => system f
  | file f => file f
  | searchpath => searchpath
  | loadlib => loadlib
  | stringArithmetic op => stringArithmetic op
  | nextIndex => nextIndex
  | nextCode => nextCode
  | nextMatch text pattern position last =>
    nextMatch text pattern (ρ.cells position) (ρ.cells last)
  | wrapped thread => wrapped (ρ.threads thread)
  | printer sink serial => printer (ρ.sinks sink) (ρ.serials serial)
  | silent serial => silent (ρ.serials serial)

def Value.rename (ρ : Renaming) : Value → Value
  | nil => nil
  | null => null
  | bool b => bool b
  | number n => number n
  | string s => string s
  | builtin f => builtin (f.rename ρ)
  | table a => table (ρ.tables a)
  | closure a => closure (ρ.closures a)
  | thread a => thread (ρ.threads a)
  | failure a => failure (ρ.failures a)

variable {ρ : Renaming}

namespace Renaming

@[simp]
theorem tables_inj (a b : Nat) : ρ.tables a = ρ.tables b ↔ a = b :=
  ⟨fun h => ρ.tables_injective h, congrArg _⟩

@[simp]
theorem closures_inj (a b : Nat) : ρ.closures a = ρ.closures b ↔ a = b :=
  ⟨fun h => ρ.closures_injective h, congrArg _⟩

@[simp]
theorem cells_inj (a b : Nat) : ρ.cells a = ρ.cells b ↔ a = b :=
  ⟨fun h => ρ.cells_injective h, congrArg _⟩

@[simp]
theorem threads_inj (a b : Nat) : ρ.threads a = ρ.threads b ↔ a = b :=
  ⟨fun h => ρ.threads_injective h, congrArg _⟩

@[simp]
theorem failures_inj (a b : Nat) : ρ.failures a = ρ.failures b ↔ a = b :=
  ⟨fun h => ρ.failures_injective h, congrArg _⟩

@[simp]
theorem serials_inj (a b : Nat) : ρ.serials a = ρ.serials b ↔ a = b :=
  ⟨fun h => ρ.serials_injective h, congrArg _⟩

@[simp]
theorem sinks_inj (a b : Nat) : ρ.sinks a = ρ.sinks b ↔ a = b :=
  ⟨fun h => ρ.sinks_injective h, congrArg _⟩

theorem threads_eq_main (a : Nat) :
    ρ.threads a = Store.mainThread ↔ a = Store.mainThread := by
  rw [← ρ.threads_inj a, ρ.threads_main]

@[simp]
theorem tables_globals : ρ.tables Store.globals = Store.globals := ρ.tables_fixed _ (by decide)

@[simp]
theorem tables_stringMeta : ρ.tables Store.stringMeta = Store.stringMeta :=
  ρ.tables_fixed _ (by decide)

@[simp]
theorem tables_listMeta : ρ.tables Store.listMeta = Store.listMeta :=
  ρ.tables_fixed _ (by decide)

theorem tables_eq_listMeta (a : Nat) : ρ.tables a = Store.listMeta ↔ a = Store.listMeta := by
  rw [← ρ.tables_inj a, tables_listMeta]

end Renaming

@[simp]
theorem Builtin.rename_inj (f g : Builtin) : f.rename ρ = g.rename ρ ↔ f = g := by
  cases f <;> cases g <;> simp [Builtin.rename]

namespace Value

@[simp]
theorem rename_nil : (nil : Value).rename ρ = nil := rfl

@[simp]
theorem rename_null : (null : Value).rename ρ = null := rfl

@[simp]
theorem rename_bool (b : Bool) : (bool b).rename ρ = bool b := rfl

@[simp]
theorem rename_number (n : Number) : (number n).rename ρ = number n := rfl

@[simp]
theorem rename_int (n : Int64) : (int n).rename ρ = int n := rfl

@[simp]
theorem rename_float (x : Float) : (float x).rename ρ = float x := rfl

@[simp]
theorem rename_ofNat (n : Nat) : (ofNat n).rename ρ = ofNat n := rfl

@[simp]
theorem rename_string (s : Bytes) : (string s).rename ρ = string s := rfl

@[simp]
theorem rename_builtin (f : Builtin) : (builtin f).rename ρ = builtin (f.rename ρ) := rfl

@[simp]
theorem rename_table (a : Nat) : (table a).rename ρ = table (ρ.tables a) := rfl

@[simp]
theorem rename_closure (a : Nat) : (closure a).rename ρ = closure (ρ.closures a) := rfl

@[simp]
theorem rename_thread (a : Nat) : (thread a).rename ρ = thread (ρ.threads a) := rfl

@[simp]
theorem rename_failure (a : Nat) : (failure a).rename ρ = failure (ρ.failures a) := rfl

@[simp]
theorem truthy_rename (v : Value) : (v.rename ρ).truthy = v.truthy := by cases v <;> rfl

@[simp]
theorem isNil_rename (v : Value) : (v.rename ρ).isNil = v.isNil := by cases v <;> rfl

@[simp]
theorem isNumber_rename (v : Value) : (v.rename ρ).isNumber = v.isNumber := by cases v <;> rfl

@[simp]
theorem typeName_rename (v : Value) : (v.rename ρ).typeName = v.typeName := by cases v <;> rfl

@[simp]
theorem text?_rename (v : Value) : (v.rename ρ).text? = v.text? := by cases v <;> rfl

@[simp]
theorem number?_rename (v : Value) : (v.rename ρ).number? = v.number? := by cases v <;> rfl

@[simp]
theorem int?_rename (v : Value) : (v.rename ρ).int? = v.int? := by cases v <;> rfl

@[simp]
theorem rawEquals_rename (v w : Value) :
    (v.rename ρ).rawEquals (w.rename ρ) = v.rawEquals w := by
  cases v <;> cases w <;> simp [rawEquals, Bool.beq_eq_decide_eq]

@[simp]
theorem asKey_rename (v : Value) : (v.rename ρ).asKey = v.asKey.rename ρ := by cases v <;> rfl

theorem headD_rename (vs : List Value) :
    (vs.map (Value.rename ρ)).headD nil = (vs.headD nil).rename ρ := by cases vs <;> rfl

end Value

/-! ## Tables -/

theorem getD_map {α β : Type} (f : α → β) (xs : Array α) (i : Nat) (d : α) :
    (xs.map f).getD i (f d) = f (xs.getD i d) := by
  rw [Array.getD_eq_getD_getElem?, Array.getD_eq_getD_getElem?, Array.getElem?_map]
  cases xs[i]? <;> rfl

theorem getD_cells (places : Array Nat) (i : Nat) :
    (places.map ρ.cells).getD i 0 = ρ.cells (places.getD i 0) := by
  have hmap := getD_map ρ.cells places i 0
  rwa [ρ.cells_fixed 0 (by decide)] at hmap

/-- A key and its value, renamed. -/
def renamePair (ρ : Renaming) (pair : Value × Value) : Value × Value :=
  (pair.1.rename ρ, pair.2.rename ρ)

def Table.rename (ρ : Renaming) (t : Table) : Table where
  items := t.items.map (Value.rename ρ)
  fields := t.fields.map (renamePair ρ)
  metatable := t.metatable.map ρ.tables

namespace Table

variable (t : Table) (k v : Value)

@[simp]
theorem rename_empty : ({} : Table).rename ρ = {} := by simp [rename]

@[simp]
theorem items_rename : (t.rename ρ).items = t.items.map (Value.rename ρ) := rfl

@[simp]
theorem metatable_rename : (t.rename ρ).metatable = t.metatable.map ρ.tables := rfl

@[simp]
theorem place?_rename : place? (k.rename ρ) = place? k := by cases k <;> rfl

theorem find_rename :
    ((t.rename ρ).fields.find? fun field => field.1.rawEquals (k.rename ρ)) =
      (t.fields.find? fun field => field.1.rawEquals k).map (renamePair ρ) := by
  have hp : ((fun field => field.1.rawEquals (k.rename ρ)) ∘ renamePair ρ) =
      fun field : Value × Value => field.1.rawEquals k := by
    funext field
    exact Value.rawEquals_rename field.1 k
  rw [rename, Array.find?_map, hp]

theorem findIdx_rename :
    ((t.rename ρ).fields.findIdx? fun field => field.1.rawEquals (k.rename ρ)) =
      t.fields.findIdx? fun field => field.1.rawEquals k := by
  have hp : ((fun field => field.1.rawEquals (k.rename ρ)) ∘ renamePair ρ) =
      fun field : Value × Value => field.1.rawEquals k := by
    funext field
    exact Value.rawEquals_rename field.1 k
  rw [rename, Array.findIdx?_map, hp]

@[simp]
theorem field_rename : (t.rename ρ).field (k.rename ρ) = (t.field k).rename ρ := by
  rw [field, field, find_rename]
  cases t.fields.find? fun field => field.1.rawEquals k <;> rfl

@[simp]
theorem getString_rename (name : Bytes) :
    (t.rename ρ).getString name = (t.getString name).rename ρ :=
  t.field_rename (.string name)

@[simp]
theorem get_rename : (t.rename ρ).get (k.rename ρ) = (t.get k).rename ρ := by
  rw [get, get, place?_rename]
  cases place? k with
  | none => exact t.field_rename k
  | some i =>
    by_cases hi : i < t.items.size
    · simp [hi]
    · simp [hi]

@[simp]
theorem setField_rename :
    (t.rename ρ).setField (k.rename ρ) (v.rename ρ) = (t.setField k v).rename ρ := by
  rw [setField, setField, findIdx_rename]
  cases t.fields.findIdx? fun field => field.1.rawEquals k with
  | some i => simp [rename, renamePair]
  | none =>
    cases hv : v.isNil
    · simp [hv, rename, renamePair]
    · simp [hv]

theorem adopt_rename (fuel : Nat) : (t.rename ρ).adopt fuel = (t.adopt fuel).rename ρ := by
  induction fuel generalizing t with
  | zero => rfl
  | succ fuel ih =>
    have hf : (t.rename ρ).field (.ofNat (t.items.size + 1)) =
        (t.field (.ofNat (t.items.size + 1))).rename ρ :=
      t.field_rename (.ofNat (t.items.size + 1))
    have hs : (t.rename ρ).setField (.ofNat (t.items.size + 1)) .nil =
        (t.setField (.ofNat (t.items.size + 1)) .nil).rename ρ :=
      t.setField_rename (.ofNat (t.items.size + 1)) .nil
    have step (v : Value) :
        adopt fuel { (t.setField (.ofNat (t.items.size + 1)) .nil).rename ρ with
          items := (t.items.map (Value.rename ρ)).push (v.rename ρ) } =
        (adopt fuel { t.setField (.ofNat (t.items.size + 1)) .nil with
          items := t.items.push v }).rename ρ := by
      rw [← ih]
      simp [rename]
    rw [adopt, adopt]
    simp only [items_rename, Array.size_map, hf, hs]
    cases t.field (.ofNat (t.items.size + 1)) with
    | nil => rfl
    | _ => exact step _

@[simp]
theorem set_rename : (t.rename ρ).set (k.rename ρ) (v.rename ρ) = (t.set k v).rename ρ := by
  rw [set, set, place?_rename]
  cases place? k with
  | none => exact t.setField_rename k v
  | some i =>
    have hpush : { t.rename ρ with items := (t.rename ρ).items.push (v.rename ρ) } =
        Table.rename ρ { t with items := t.items.push v } := by simp [rename]
    have hempty : (t.rename ρ).fields.isEmpty = t.fields.isEmpty := by
      simp [rename, Array.isEmpty]
    have hsize : (t.rename ρ).fields.size = t.fields.size := by simp [rename]
    have hset (t : Table) : (t.rename ρ).setField (k.rename ρ) .nil =
        (t.setField k .nil).rename ρ := t.setField_rename k .nil
    simp only [hpush, hempty, hsize, hset, adopt_rename]
    simp only [items_rename, Array.size_map, Value.isNil_rename]
    split
    · simp [rename]
    · split
      · split <;> rfl
      · exact t.setField_rename k v

theorem isNil_getD_rename (items : Array Value) (i : Nat) :
    ((items.map (Value.rename ρ)).getD i .nil).isNil = (items.getD i .nil).isNil := by
  rw [← Value.rename_nil, getD_map, Value.isNil_rename, Value.rename_nil]

theorem border_rename (items : Array Value) (fuel low high : Nat) :
    border (items.map (Value.rename ρ)) fuel low high = border items fuel low high := by
  induction fuel generalizing low high with
  | zero => rfl
  | succ fuel ih =>
    rw [border, border]
    simp only [isNil_getD_rename, ih]

@[simp]
theorem length_rename : (t.rename ρ).length = t.length := by
  rw [length, length, items_rename, Array.back?_map]
  cases t.items.back? with
  | none => rfl
  | some last =>
    simp only [Option.map_some, Value.isNil_rename, Array.size_map, isNil_getD_rename,
      border_rename]

theorem pairs_eq : t.pairs = ((t.items.toList.zipIdx 1).map (fun x => (Value.ofNat x.2, x.1)) ++
    t.fields.toList).filter fun pair => !pair.2.isNil := rfl

@[simp]
theorem pairs_rename : (t.rename ρ).pairs = t.pairs.map (renamePair ρ) := by
  have hnil : (fun pair : Value × Value => !pair.2.isNil) ∘ renamePair ρ =
      fun pair => !pair.2.isNil := by
    funext pair
    simp [renamePair]
  have hitems : ((t.rename ρ).items.toList.zipIdx 1).map (fun x => (Value.ofNat x.2, x.1)) =
      ((t.items.toList.zipIdx 1).map fun x => (Value.ofNat x.2, x.1)).map (renamePair ρ) := by
    rw [items_rename, Array.toList_map, List.zipIdx_map, List.map_map, List.map_map]
    rfl
  have hfields : (t.rename ρ).fields.toList = t.fields.toList.map (renamePair ρ) :=
    Array.toList_map
  rw [pairs_eq, pairs_eq, hitems, hfields, ← List.map_append, List.filter_map, hnil]

theorem pairFrom_rename (fuel i : Nat) :
    (t.rename ρ).pairFrom fuel i = (t.pairFrom fuel i).map (renamePair ρ) := by
  induction fuel generalizing i with
  | zero => rfl
  | succ fuel ih =>
    have hitem : (t.rename ρ).items.getD i .nil = (t.items.getD i .nil).rename ρ :=
      getD_map (Value.rename ρ) t.items i .nil
    have hfield : (t.rename ρ).fields[i - t.items.size]? =
        t.fields[i - t.items.size]?.map (renamePair ρ) := Array.getElem?_map
    have hsize : (t.rename ρ).items.size = t.items.size := Array.size_map
    rw [pairFrom, pairFrom, hsize]
    by_cases hi : i < t.items.size
    · simp only [if_pos hi, hitem, Value.isNil_rename, ih]
      cases (t.items.getD i .nil).isNil <;> rfl
    · rw [if_neg hi, if_neg hi, hfield]
      cases t.fields[i - t.items.size]? with
      | none => rfl
      | some field =>
        simp only [Option.map_some, renamePair, Value.isNil_rename, ih]
        cases field.2.isNil <;> rfl

@[simp]
theorem placeAfter?_rename : (t.rename ρ).placeAfter? (k.rename ρ) = t.placeAfter? k := by
  simp only [placeAfter?, findIdx_rename, place?_rename, items_rename, Array.size_map]

@[simp]
theorem next?_rename :
    (t.rename ρ).next? (k.rename ρ) = (t.next? k).map (Option.map (renamePair ρ)) := by
  have hsize : (t.rename ρ).items.size + (t.rename ρ).fields.size + 1 =
      t.items.size + t.fields.size + 1 := by simp [rename]
  have hnext : ((t.rename ρ).placeAfter? (k.rename ρ)).map ((t.rename ρ).pairFrom
        ((t.rename ρ).items.size + (t.rename ρ).fields.size + 1)) =
      ((t.placeAfter? k).map (t.pairFrom (t.items.size + t.fields.size + 1))).map
        (Option.map (renamePair ρ)) := by
    rw [hsize, placeAfter?_rename, Option.map_map]
    exact congrArg (Option.map · _) (funext fun i => t.pairFrom_rename _ i)
  cases k with
  | nil =>
    simp only [next?, Value.rename_nil, hsize, pairFrom_rename, Option.map_some]
  | _ => exact hnext

end Table

end ScriptHost.Lua

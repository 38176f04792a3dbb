import ScriptHost.Proofs.Lua.Renaming

/-!
# Stores that differ by a renaming

One store is another renamed (`Store.Renamed`) if everything that stands in the first stands, with
its values renamed, in the second, and if what comes next gets places that correspond. The second
may hold more: nothing that is renamed refers to it. Reading such stores gives values that differ
by the renaming, and writing keeps them so.
-/

namespace ScriptHost.Lua

/-! ## Arrays -/

section

variable {α : Type} [Inhabited α] {r : Nat → Nat} {f : α → α} {xs ys : Array α}

theorem getD_push (xs : Array α) (x : α) (i : Nat) :
    (xs.push x).getD i default = if i = xs.size then x else xs.getD i default := by
  simp only [Array.getD_eq_getD_getElem?, Array.getElem?_push]
  split <;> rfl

theorem size_setAt (xs : Array α) (i : Nat) (x : α) :
    (Store.setAt xs i x).size = max xs.size (i + 1) := by
  rw [Store.setAt]
  split
  · rw [Array.size_setIfInBounds]
    omega
  · simp
    omega

theorem getD_setAt (xs : Array α) (i : Nat) (x : α) (j : Nat) :
    (Store.setAt xs i x).getD j default = if j = i then x else xs.getD j default := by
  rw [Store.setAt]
  split
  · rename_i hi
    simp only [Array.getD_eq_getD_getElem?, Array.getElem?_setIfInBounds]
    by_cases hj : j = i
    · subst hj
      simp [hi]
    · simp [hj, Ne.symm hj]
  · rename_i hi
    have hsize : (xs ++ Array.replicate (i - xs.size) default).size = i := by
      simp
      omega
    rw [getD_push, hsize]
    by_cases hj : j = i
    · simp [hj]
    · simp only [if_neg hj, Array.getD_eq_getD_getElem?, Array.getElem?_append]
      split
      · rfl
      · rename_i hlt
        have hnone : xs[j]? = none := Array.getElem?_eq_none (Nat.le_of_not_lt hlt)
        rw [hnone, Array.getElem?_replicate]
        split <;> rfl

/-- What stands in the first array stands, changed, in the second one at the places that `r`
gives, and what is added at the ends corresponds. -/
structure Along (r : Nat → Nat) (f : α → α) (xs ys : Array α) : Prop where
  get : ∀ a, ys.getD (r a) default = f (xs.getD a default)
  next : ∀ k, r (xs.size + k) = ys.size + k

namespace Along

theorem size (h : Along r f xs ys) : r xs.size = ys.size := h.next 0

theorem lt (h : Along r f xs ys) (hr : Function.Injective r) {a : Nat} (ha : a < xs.size) :
    r a < ys.size := by
  refine Nat.lt_of_not_le fun hge => ?_
  have heq : r a = r (xs.size + (r a - ys.size)) := by
    rw [h.next]
    omega
  have := hr heq
  omega

theorem push (h : Along r f xs ys) (hr : Function.Injective r) (x : α) :
    Along r f (xs.push x) (ys.push (f x)) where
  get a := by
    rw [getD_push, getD_push]
    by_cases ha : a = xs.size
    · rw [if_pos ha, if_pos (ha ▸ h.size)]
    · have hne : r a ≠ ys.size := fun he => ha (hr (he.trans h.size.symm))
      rw [if_neg ha, if_neg hne, h.get]
  next k := by
    rw [Array.size_push, Array.size_push, Nat.add_assoc, h.next, Nat.add_assoc]

theorem setAt (h : Along r f xs ys) (hr : Function.Injective r) (a : Nat) (x : α) :
    Along r f (Store.setAt xs a x) (Store.setAt ys (r a) (f x)) where
  get b := by
    rw [getD_setAt, getD_setAt]
    by_cases hb : b = a
    · rw [if_pos hb, if_pos (congrArg r hb)]
    · rw [if_neg hb, if_neg fun he => hb (hr he), h.get]
  next k := by
    rw [size_setAt, size_setAt]
    by_cases ha : a < xs.size
    · have := h.lt hr ha
      rw [Nat.max_eq_left ha, Nat.max_eq_left this, h.next]
    · obtain ⟨j, rfl⟩ := Nat.exists_eq_add_of_le (Nat.le_of_not_lt ha)
      rw [h.next, Nat.max_eq_right (by omega), Nat.max_eq_right (by omega), Nat.add_assoc,
        Nat.add_assoc, h.next]
      omega

end Along

end

/-! ## What stands in stores -/

def Closure.rename (ρ : Renaming) (c : Closure) : Closure :=
  { c with upvalues := c.upvalues.map ρ.cells }

def Activation.rename (ρ : Renaming) (a : Activation) : Activation :=
  { a with
    closure := ρ.closures a.closure
    slots := a.slots.map ρ.cells
    stack := a.stack.map (Value.rename ρ)
    many := a.many.map (Value.rename ρ)
    arguments := a.arguments.map (Value.rename ρ)
    raising := a.raising.map (Value.rename ρ) }

def Thread.rename (ρ : Renaming) : Thread → Thread
  | fresh f => fresh (f.rename ρ)
  | suspended calls => suspended (calls.map (Activation.rename ρ))
  | running => running
  | waiting => waiting
  | dead error => dead (error.map (Value.rename ρ))

def Written.rename (ρ : Renaming) (w : Written) : Written := { w with sink := ρ.sinks w.sink }

def Store.Found.rename (ρ : Renaming) : Store.Found → Store.Found
  | value v => value (v.rename ρ)
  | call f args => call (f.rename ρ) (args.map (Value.rename ρ))
  | noFields object => noFields (object.rename ρ)
  | loop => loop

def Store.Assigned.rename (ρ : Renaming) : Store.Assigned → Store.Assigned
  | into a => into (ρ.tables a)
  | call f args => call (f.rename ρ) (args.map (Value.rename ρ))
  | noFields object => noFields (object.rename ρ)
  | badKey reason => badKey reason
  | loop => loop

/-- The second store holds what the first one holds, under other names. -/
structure Store.Renamed (ρ : Renaming) (s t : Store) : Prop where
  tables : Along ρ.tables (Table.rename ρ) s.tables t.tables
  closures : Along ρ.closures (Closure.rename ρ) s.closures t.closures
  cells : Along ρ.cells (Value.rename ρ) s.cells t.cells
  threads : Along ρ.threads (Thread.rename ρ) s.threads t.threads
  failures : Along ρ.failures id s.failures t.failures
  written : t.written = s.written.map (Written.rename ρ)
  current : t.current = ρ.threads s.current
  traceback : t.traceback = s.traceback
  layout : ∀ v : Value, t.layout (v.rename ρ) = s.layout v

theorem Store.modifyTable_eq (s : Store) (a : Nat) (f : Table → Table) :
    s.modifyTable a f = s.setTable a (f (s.table a)) := by
  unfold modifyTable setTable setAt
  by_cases ha : a < s.tables.size
  · rw [if_pos ha, if_pos ha]
    congr 1
    apply Array.ext_getElem?
    intro i
    simp only [Array.getElem?_modify, Array.getElem?_setIfInBounds, table,
      Array.getD_eq_getD_getElem?]
    by_cases hi : a = i
    · subst hi
      simp [ha]
    · simp [hi]
  · have ht : s.table a = {} := by
      simp [table, Array.getElem?_eq_none (Nat.le_of_not_lt ha)]
    rw [if_neg ha, if_neg ha, if_neg ha, ht]

@[simp]
theorem Store.badKey?_rename {ρ : Renaming} (key : Value) :
    badKey? (key.rename ρ) = badKey? key := by cases key <;> rfl

namespace Store.Renamed

variable {ρ : Renaming} {s t : Store}

/-! ## Reading and writing -/

theorem table (h : s.Renamed ρ t) (a : Nat) : t.table (ρ.tables a) = (s.table a).rename ρ :=
  h.tables.get a

theorem table_fixed (h : s.Renamed ρ t) {a : Nat} (ha : a < Interpreter.fixedTables) :
    t.table a = (s.table a).rename ρ := by
  rw [← h.table, ρ.tables_fixed a ha]

theorem cell (h : s.Renamed ρ t) (a : Nat) : t.cell (ρ.cells a) = (s.cell a).rename ρ :=
  h.cells.get a

theorem cell_fixed (h : s.Renamed ρ t) {a : Nat} (ha : a < Store.fixedCells) :
    t.cell a = (s.cell a).rename ρ := by
  rw [← h.cell, ρ.cells_fixed a ha]

theorem closure (h : s.Renamed ρ t) (a : Nat) :
    t.closures.getD (ρ.closures a) default = (s.closures.getD a default).rename ρ :=
  h.closures.get a

theorem thread (h : s.Renamed ρ t) (a : Nat) : t.thread (ρ.threads a) = (s.thread a).rename ρ :=
  h.threads.get a

theorem failure (h : s.Renamed ρ t) (a : Nat) :
    t.failures.getD (ρ.failures a) default = s.failures.getD a default :=
  h.failures.get a

theorem setTable (h : s.Renamed ρ t) (a : Nat) (x : Table) :
    (s.setTable a x).Renamed ρ (t.setTable (ρ.tables a) (x.rename ρ)) :=
  { h with tables := h.tables.setAt ρ.tables_injective a x }

theorem modifyTable (h : s.Renamed ρ t) (a : Nat) {f g : Table → Table}
    (hf : ∀ x : Table, g (x.rename ρ) = (f x).rename ρ) :
    (s.modifyTable a f).Renamed ρ (t.modifyTable (ρ.tables a) g) := by
  rw [modifyTable_eq, modifyTable_eq, h.table, hf]
  exact h.setTable a _

theorem newTable (h : s.Renamed ρ t) (x : Table) :
    (s.newTable x).1.Renamed ρ (t.newTable (x.rename ρ)).1 :=
  { h with tables := h.tables.push ρ.tables_injective x }

theorem newTable_address (h : s.Renamed ρ t) (x : Table) :
    (t.newTable (x.rename ρ)).2 = (s.newTable x).2.rename ρ :=
  congrArg Value.table h.tables.size.symm

theorem setCell (h : s.Renamed ρ t) (a : Nat) (v : Value) :
    (s.setCell a v).Renamed ρ (t.setCell (ρ.cells a) (v.rename ρ)) :=
  { h with cells := h.cells.setAt ρ.cells_injective a v }

theorem newCell (h : s.Renamed ρ t) (v : Value) :
    (s.newCell v).1.Renamed ρ (t.newCell (v.rename ρ)).1 :=
  { h with cells := h.cells.push ρ.cells_injective v }

theorem newCell_address (h : s.Renamed ρ t) (v : Value) :
    (t.newCell (v.rename ρ)).2 = ρ.cells (s.newCell v).2 :=
  h.cells.size.symm

theorem newClosure (h : s.Renamed ρ t) (c : Closure) :
    (s.newClosure c).1.Renamed ρ (t.newClosure (c.rename ρ)).1 :=
  { h with closures := h.closures.push ρ.closures_injective c }

theorem newClosure_address (h : s.Renamed ρ t) (c : Closure) :
    (t.newClosure (c.rename ρ)).2 = (s.newClosure c).2.rename ρ :=
  congrArg Value.closure h.closures.size.symm

theorem setThread (h : s.Renamed ρ t) (a : Nat) (x : Thread) :
    (s.setThread a x).Renamed ρ (t.setThread (ρ.threads a) (x.rename ρ)) :=
  { h with threads := h.threads.setAt ρ.threads_injective a x }

theorem newThread (h : s.Renamed ρ t) (x : Thread) :
    (s.newThread x).1.Renamed ρ (t.newThread (x.rename ρ)).1 :=
  { h with threads := h.threads.push ρ.threads_injective x }

theorem newThread_address (h : s.Renamed ρ t) (x : Thread) :
    (t.newThread (x.rename ρ)).2 = ρ.threads (s.newThread x).2 :=
  h.threads.size.symm

theorem newFailure (h : s.Renamed ρ t) (f : Failure) :
    (s.newFailure f).1.Renamed ρ (t.newFailure f).1 :=
  { h with failures := h.failures.push ρ.failures_injective f }

theorem newFailure_address (h : s.Renamed ρ t) (f : Failure) :
    (t.newFailure f).2 = (s.newFailure f).2.rename ρ :=
  congrArg Value.failure h.failures.size.symm

theorem noteOrigin (h : s.Renamed ρ t) (a : Nat) (traceback : Bytes) :
    (s.noteOrigin a traceback).Renamed ρ (t.noteOrigin (ρ.failures a) traceback) := by
  rw [Store.noteOrigin, Store.noteOrigin, h.failure]
  split
  · exact { h with failures := h.failures.setAt ρ.failures_injective a _ }
  · exact h

theorem write (h : s.Renamed ρ t) (sink : Nat) (text : String) :
    (s.write sink text).Renamed ρ (t.write (ρ.sinks sink) text) :=
  { h with written := by rw [Store.write, Store.write, h.written]; rfl }

theorem goOn (h : s.Renamed ρ t) (thread : Nat) :
    { s with current := thread }.Renamed ρ { t with current := ρ.threads thread } :=
  { h with current := rfl }

/-! ## Behaviour -/

theorem metatable? (h : s.Renamed ρ t) (v : Value) :
    t.metatable? (v.rename ρ) = (s.metatable? v).map ρ.tables := by
  cases v with
  | table a =>
    show (t.table (ρ.tables a)).metatable = _
    rw [h.table]
    rfl
  | string _ => exact congrArg some (ρ.tables_fixed stringMeta (by decide)).symm
  | _ => rfl

@[simp]
theorem event (h : s.Renamed ρ t) (v : Value) (name : Bytes) :
    t.event (v.rename ρ) name = (s.event v name).rename ρ := by
  rw [Store.event, Store.event, h.metatable?]
  cases s.metatable? v with
  | none => rfl
  | some m =>
    show (t.table (ρ.tables m)).getString name = _
    rw [h.table, Table.getString_rename]

@[simp]
theorem typeName (h : s.Renamed ρ t) (v : Value) : t.typeName (v.rename ρ) = s.typeName v := by
  cases v with
  | table a =>
    have he := h.event (.table a) "__name"
    rw [Value.rename_table] at he
    rw [Value.rename_table, Store.typeName, Store.typeName, he]
    cases s.event (.table a) "__name" <;> rfl
  | _ => rfl

theorem get (h : s.Renamed ρ t) (a : Nat) (key : Value) :
    (t.table (ρ.tables a)).get (key.rename ρ) = ((s.table a).get key).rename ρ := by
  rw [h.table, Table.get_rename]

theorem getString (h : s.Renamed ρ t) (a : Nat) (name : Bytes) :
    (t.table (ρ.tables a)).getString name = ((s.table a).getString name).rename ρ := by
  rw [h.table, Table.getString_rename]

theorem metatable (h : s.Renamed ρ t) (a : Nat) :
    (t.table (ρ.tables a)).metatable = (s.table a).metatable.map ρ.tables := by
  rw [h.table, Table.metatable_rename]

/-- A look-up goes on in the same way. -/
theorem lookup (h : s.Renamed ρ t) (key object : Value) (fuel : Nat) :
    t.lookup (key.rename ρ) fuel (object.rename ρ) = (s.lookup key fuel object).rename ρ := by
  induction fuel generalizing object with
  | zero => rfl
  | succ fuel ih =>
    cases object with
    | table a =>
      simp only [Value.rename_table, Store.lookup, h.get, h.metatable]
      cases (s.table a).get key with
      | nil =>
        cases (s.table a).metatable with
        | none => rfl
        | some m =>
          simp only [Value.rename_nil, Option.map_some, h.getString]
          cases (s.table m).getString "__index" with
          | nil | closure _ | builtin _ => rfl
          | _ => exact ih _
      | _ => rfl
    | string text =>
      have he := h.event (.string text) "__index"
      rw [Value.rename_string] at he
      simp only [Value.rename_string, Store.lookup, he]
      cases s.event (.string text) "__index" with
      | nil | closure _ | builtin _ => rfl
      | _ => exact ih _
    | _ => rfl

/-- An assignment goes on in the same way. -/
theorem assign (h : s.Renamed ρ t) (key value object : Value) (fuel : Nat) :
    t.assign (key.rename ρ) (value.rename ρ) fuel (object.rename ρ) =
      (s.assign key value fuel object).rename ρ := by
  induction fuel generalizing object with
  | zero => rfl
  | succ fuel ih =>
    cases object with
    | table a =>
      simp only [Value.rename_table, Store.assign, h.get, h.metatable, Store.badKey?_rename]
      cases (s.table a).get key with
      | nil =>
        cases (s.table a).metatable with
        | none => cases Store.badKey? key <;> rfl
        | some m =>
          simp only [Value.rename_nil, Option.map_some, h.getString]
          cases (s.table m).getString "__newindex" with
          | nil => cases Store.badKey? key <;> rfl
          | closure _ | builtin _ => rfl
          | _ => exact ih _
      | _ => cases Store.badKey? key <;> rfl
    | string text =>
      have he := h.event (.string text) "__newindex"
      rw [Value.rename_string] at he
      simp only [Value.rename_string, Store.assign, he]
      cases s.event (.string text) "__newindex" with
      | nil | closure _ | builtin _ => rfl
      | _ => exact ih _
    | _ => rfl

theorem plainText (h : s.Renamed ρ t) (v : Value) :
    t.plainText (v.rename ρ) = s.plainText v := by
  have hn := h.typeName v
  have hl := h.layout v
  cases v with
  | failure a => simp only [Value.rename_failure, Store.plainText, h.failure]
  | table _ | closure _ | builtin _ | thread _ =>
    simp only [Store.plainText, Value.rename] at hn hl ⊢
    simp only [hn, hl]
  | _ => rfl

end Store.Renamed

end ScriptHost.Lua

import ScriptHost.Proofs.Lua.Executions

/-!
# JSON that comes into a store

JSON comes in as new tables behind those that the store has (`Store.ofJson_shows`), whatever
stands in these (`Store.ofJson_setTable`).
-/

namespace ScriptHost.Lua

/-! ## Tables of a store -/

namespace Store

theorem table_setTable (s : Store) (a : Nat) (t : Table) (b : Nat) :
    (s.setTable a t).table b = if b = a then t else s.table b := getD_setAt s.tables a t b

@[simp]
theorem table_modifyTable_self (s : Store) (a : Nat) (f : Table → Table) :
    (s.modifyTable a f).table a = f (s.table a) := by
  rw [modifyTable_eq, table_setTable, if_pos rfl]

theorem table_modifyTable_of_ne (s : Store) {a b : Nat} (h : b ≠ a) (f : Table → Table) :
    (s.modifyTable a f).table b = s.table b := by
  rw [modifyTable_eq, table_setTable, if_neg h]

theorem size_tables_modifyTable {s : Store} {a : Nat} (h : a < s.tables.size) (f : Table → Table) :
    (s.modifyTable a f).tables.size = s.tables.size := by
  rw [modifyTable, if_pos h, Array.size_modify]

theorem Founded.modifyTable {s : Store} (h : s.Founded) {a : Nat} (ha : a < s.tables.size)
    (f : Table → Table) : (s.modifyTable a f).Founded := by
  have hsize := size_tables_modifyTable ha f
  rw [Store.modifyTable, if_pos ha] at hsize ⊢
  exact ⟨hsize ▸ h.tables, h.cells, h.threads⟩

/-- The store with tables behind those that it has. -/
def extended (s : Store) (more : Array Table) : Store := { s with tables := s.tables ++ more }

theorem extended_extended (s : Store) (more others : Array Table) :
    (s.extended more).extended others = s.extended (more ++ others) := by
  simp [extended]

theorem table_extended_of_lt (s : Store) (more : Array Table) {a : Nat} (h : a < s.tables.size) :
    (s.extended more).table a = s.table a := by
  simp [extended, table, Array.getD_eq_getD_getElem?, Array.getElem?_append_left h]

/-- A new table comes last, and takes the next place. -/
theorem extended_push (s : Store) (more : Array Table) (t : Table) :
    ((s.extended more).newTable t).1 = s.extended (more.push t) ∧
      ((s.extended more).newTable t).2 = .table (s.tables.size + more.size) ∧
      s.tables.size + more.size < (s.extended (more.push t)).tables.size ∧
      (s.extended (more.push t)).table (s.tables.size + more.size) = t := by
  refine ⟨by simp [newTable, extended], by simp [newTable, extended], ?_, ?_⟩
  · simp [extended]
  · simp [extended, table, Array.getD_eq_getD_getElem?]

/-! ## JSON in a store -/

mutual

/-- The value stands for the JSON, and all its tables stand at the place or behind it. -/
def Shows (s : Store) (first : Nat) : Value → Json → Prop
  | v, .null => v = .null
  | v, .bool b => v = .bool b
  | v, .int n =>
    v = if n ≤ Int64.maxValue.toInt then .int (.ofInt n)
      else .float (Double.ofRatio false ⟨n.toNat, 1⟩)
  | v, .float x => v = .float x
  | v, .str t => v = .string (Bytes.ofString t)
  | v, .arr items => ∃ a vs, v = .table a ∧ first ≤ a ∧ a < s.tables.size ∧
      s.table a = { items := vs.toArray, metatable := some listMeta } ∧ s.ShowsItems first vs items
  | v, .obj fields => ∃ a vs, v = .table a ∧ first ≤ a ∧ a < s.tables.size ∧
      s.table a = { fields := vs.toArray } ∧ s.ShowsFields first vs fields

def ShowsItems (s : Store) (first : Nat) : List Value → List Json → Prop
  | vs, [] => vs = []
  | vs, item :: rest => ∃ v ws, vs = v :: ws ∧ s.Shows first v item ∧ s.ShowsItems first ws rest

def ShowsFields (s : Store) (first : Nat) : List (Value × Value) → List (String × Json) → Prop
  | vs, [] => vs = []
  | vs, (name, item) :: rest => ∃ v ws, vs = (.string (Bytes.ofString name), v) :: ws ∧
      s.Shows first v item ∧ s.ShowsFields first ws rest

end

/-- The second store has all tables of the first one, and from the place on they are the same. -/
structure Keeps (first : Nat) (s t : Store) : Prop where
  size : s.tables.size ≤ t.tables.size
  table : ∀ a, first ≤ a → a < s.tables.size → t.table a = s.table a

theorem Keeps.refl (first : Nat) (s : Store) : Keeps first s s := ⟨Nat.le_refl _, fun _ _ _ => rfl⟩

theorem keeps_extended (first : Nat) (s : Store) (more : Array Table) :
    Keeps first s (s.extended more) where
  size := by simp [extended]
  table _ _ ha := s.table_extended_of_lt more ha

/-! Values go on to stand for what they do as long as their tables are kept. -/

mutual

theorem Shows.mono {s t : Store} {first first' : Nat} (hk : Keeps first s t) (hf : first' ≤ first)
    {v : Value} {j : Json} (h : s.Shows first v j) : t.Shows first' v j := by
  cases j with
  | null | bool _ | int _ | float _ | str _ =>
    unfold Shows at h ⊢
    exact h
  | arr items =>
    unfold Shows at h ⊢
    obtain ⟨a, vs, hv, hle, hlt, ht, hs⟩ := h
    exact ⟨a, vs, hv, Nat.le_trans hf hle, Nat.lt_of_lt_of_le hlt hk.size,
      (hk.table a hle hlt).trans ht, hs.mono hk hf⟩
  | obj fields =>
    unfold Shows at h ⊢
    obtain ⟨a, vs, hv, hle, hlt, ht, hs⟩ := h
    exact ⟨a, vs, hv, Nat.le_trans hf hle, Nat.lt_of_lt_of_le hlt hk.size,
      (hk.table a hle hlt).trans ht, hs.mono hk hf⟩

theorem ShowsItems.mono {s t : Store} {first first' : Nat} (hk : Keeps first s t)
    (hf : first' ≤ first) {vs : List Value} {items : List Json}
    (h : s.ShowsItems first vs items) : t.ShowsItems first' vs items := by
  cases items with
  | nil =>
    unfold ShowsItems at h ⊢
    exact h
  | cons item rest =>
    unfold ShowsItems at h ⊢
    obtain ⟨v, ws, hv, hitem, hrest⟩ := h
    exact ⟨v, ws, hv, hitem.mono hk hf, hrest.mono hk hf⟩

theorem ShowsFields.mono {s t : Store} {first first' : Nat} (hk : Keeps first s t)
    (hf : first' ≤ first) {vs : List (Value × Value)} {fields : List (String × Json)}
    (h : s.ShowsFields first vs fields) : t.ShowsFields first' vs fields := by
  cases fields with
  | nil =>
    unfold ShowsFields at h ⊢
    exact h
  | cons field rest =>
    obtain ⟨name, item⟩ := field
    unfold ShowsFields at h ⊢
    obtain ⟨v, ws, hv, hitem, hrest⟩ := h
    exact ⟨v, ws, hv, hitem.mono hk hf, hrest.mono hk hf⟩

end

/-! JSON comes in as new tables that stand for it. -/

mutual

theorem ofJson_shows (s : Store) (j : Json) :
    ∃ more, (s.ofJson j).1 = s.extended more ∧
      (s.extended more).Shows s.tables.size (s.ofJson j).2 j := by
  cases j with
  | null | bool _ | float _ | str _ =>
    refine ⟨#[], by simp [ofJson, extended], ?_⟩
    unfold Shows
    rfl
  | int n =>
    refine ⟨#[], by simp only [ofJson]; split <;> simp [extended], ?_⟩
    unfold Shows
    simp only [ofJson]
    split <;> rfl
  | arr items =>
    obtain ⟨more, hs, hi⟩ := s.ofJsonItems_shows items
    refine ⟨more.push { items := (s.ofJsonItems items).2.toArray, metatable := some listMeta },
      ?_, ?_⟩
    · simp only [ofJson, hs]
      exact (s.extended_push more _).1
    · have hplace := s.extended_push more
        { items := (s.ofJsonItems items).2.toArray, metatable := some listMeta }
      unfold Shows
      refine ⟨s.tables.size + more.size, _, ?_, by omega, hplace.2.2.1, hplace.2.2.2, ?_⟩
      · simp only [ofJson, hs]
        exact hplace.2.1
      · rw [Array.push_eq_append, ← extended_extended]
        exact hi.mono (keeps_extended _ _ _) (Nat.le_refl _)
  | obj fields =>
    obtain ⟨more, hs, hi⟩ := s.ofJsonFields_shows fields
    refine ⟨more.push { fields := (s.ofJsonFields fields).2.toArray }, ?_, ?_⟩
    · simp only [ofJson, hs]
      exact (s.extended_push more _).1
    · have hplace := s.extended_push more { fields := (s.ofJsonFields fields).2.toArray }
      unfold Shows
      refine ⟨s.tables.size + more.size, _, ?_, by omega, hplace.2.2.1, hplace.2.2.2, ?_⟩
      · simp only [ofJson, hs]
        exact hplace.2.1
      · rw [Array.push_eq_append, ← extended_extended]
        exact hi.mono (keeps_extended _ _ _) (Nat.le_refl _)

theorem ofJsonItems_shows (s : Store) (items : List Json) :
    ∃ more, (s.ofJsonItems items).1 = s.extended more ∧
      (s.extended more).ShowsItems s.tables.size (s.ofJsonItems items).2 items := by
  cases items with
  | nil => exact ⟨#[], by simp [ofJsonItems, extended], by unfold ShowsItems; rfl⟩
  | cons item rest =>
    obtain ⟨first, hs, hv⟩ := s.ofJson_shows item
    obtain ⟨others, hr, hvs⟩ := (s.ofJson item).1.ofJsonItems_shows rest
    rw [hs] at hr hvs
    refine ⟨first ++ others, ?_, ?_⟩
    · simp only [ofJsonItems, hs, hr, extended_extended]
    · rw [← extended_extended]
      have hrest := hvs.mono (.refl _ _) (keeps_extended 0 s first).size
      unfold ShowsItems
      refine ⟨_, _, ?_, hv.mono (keeps_extended _ _ others) (Nat.le_refl _), hrest⟩
      simp only [ofJsonItems, hs]

theorem ofJsonFields_shows (s : Store) (fields : List (String × Json)) :
    ∃ more, (s.ofJsonFields fields).1 = s.extended more ∧
      (s.extended more).ShowsFields s.tables.size (s.ofJsonFields fields).2 fields := by
  cases fields with
  | nil => exact ⟨#[], by simp [ofJsonFields, extended], by unfold ShowsFields; rfl⟩
  | cons field rest =>
    obtain ⟨name, item⟩ := field
    obtain ⟨first, hs, hv⟩ := s.ofJson_shows item
    obtain ⟨others, hr, hvs⟩ := (s.ofJson item).1.ofJsonFields_shows rest
    rw [hs] at hr hvs
    refine ⟨first ++ others, ?_, ?_⟩
    · simp only [ofJsonFields, hs, hr, extended_extended]
    · rw [← extended_extended]
      have hrest := hvs.mono (.refl _ _) (keeps_extended 0 s first).size
      unfold ShowsFields
      refine ⟨_, _, ?_, hv.mono (keeps_extended _ _ others) (Nat.le_refl _), hrest⟩
      simp only [ofJsonFields, hs]

end

/-! ## Beside what there is -/

theorem setAt_push {α : Type} [Inhabited α] {xs : Array α} {i : Nat} (hi : i < xs.size) (x y : α) :
    (setAt xs i x).push y = setAt (xs.push y) i x := by
  have hpush : i < (xs.push y).size := by
    rw [Array.size_push]
    exact Nat.lt_succ_of_lt hi
  rw [setAt, setAt, if_pos hi, if_pos hpush, Array.push_eq_append, Array.push_eq_append,
    Array.setIfInBounds_append_left hi]

variable {s : Store} {a : Nat} (t : Table)

theorem size_tables_setTable (ha : a < s.tables.size) :
    (s.setTable a t).tables.size = s.tables.size := by
  rw [setTable, size_setAt]
  omega

theorem newTable_setTable (ha : a < s.tables.size) (x : Table) :
    (s.setTable a t).newTable x = ((s.newTable x).1.setTable a t, (s.newTable x).2) := by
  rw [newTable, newTable, size_tables_setTable t ha]
  exact congrArg (fun tables => ({ s with tables }, Value.table s.tables.size))
    (setAt_push ha t x)

theorem lt_ofJson (ha : a < s.tables.size) (j : Json) : a < (s.ofJson j).1.tables.size := by
  obtain ⟨more, hs, -⟩ := s.ofJson_shows j
  rw [hs]
  exact Nat.lt_of_lt_of_le ha (keeps_extended 0 s more).size

theorem lt_ofJsonItems (ha : a < s.tables.size) (items : List Json) :
    a < (s.ofJsonItems items).1.tables.size := by
  obtain ⟨more, hs, -⟩ := s.ofJsonItems_shows items
  rw [hs]
  exact Nat.lt_of_lt_of_le ha (keeps_extended 0 s more).size

theorem lt_ofJsonFields (ha : a < s.tables.size) (fields : List (String × Json)) :
    a < (s.ofJsonFields fields).1.tables.size := by
  obtain ⟨more, hs, -⟩ := s.ofJsonFields_shows fields
  rw [hs]
  exact Nat.lt_of_lt_of_le ha (keeps_extended 0 s more).size

mutual

theorem ofJson_setTable {s : Store} {a : Nat} (t : Table) (ha : a < s.tables.size) (j : Json) :
    (s.setTable a t).ofJson j = ((s.ofJson j).1.setTable a t, (s.ofJson j).2) := by
  cases j with
  | null | bool _ | float _ | str _ => simp only [ofJson]
  | int n =>
    simp only [ofJson]
    split <;> rfl
  | arr items =>
    simp only [ofJson, ofJsonItems_setTable t ha items]
    exact newTable_setTable t (lt_ofJsonItems ha items) _
  | obj fields =>
    simp only [ofJson, ofJsonFields_setTable t ha fields]
    exact newTable_setTable t (lt_ofJsonFields ha fields) _

theorem ofJsonItems_setTable {s : Store} {a : Nat} (t : Table) (ha : a < s.tables.size)
    (items : List Json) :
    (s.setTable a t).ofJsonItems items =
      ((s.ofJsonItems items).1.setTable a t, (s.ofJsonItems items).2) := by
  cases items with
  | nil => simp only [ofJsonItems]
  | cons item rest =>
    simp only [ofJsonItems, ofJson_setTable t ha item,
      ofJsonItems_setTable t (lt_ofJson ha item) rest]

theorem ofJsonFields_setTable {s : Store} {a : Nat} (t : Table) (ha : a < s.tables.size)
    (fields : List (String × Json)) :
    (s.setTable a t).ofJsonFields fields =
      ((s.ofJsonFields fields).1.setTable a t, (s.ofJsonFields fields).2) := by
  cases fields with
  | nil => simp only [ofJsonFields]
  | cons field rest =>
    obtain ⟨name, item⟩ := field
    simp only [ofJsonFields, ofJson_setTable t ha item,
      ofJsonFields_setTable t (lt_ofJson ha item) rest]

end

end Store

end ScriptHost.Lua

import Mathlib.Data.List.Perm.Subperm
import ScriptHost.Proofs.Lua.Renamed

/-!
# JSON on renamed stores

JSON comes into stores that differ by a renaming alike (`Store.Renamed.ofJson`), and values come
out of them as the same JSON (`Store.Renamed.toJson`). What comes out does not depend on the size
of the store: a path through tables that does not come back to any of them cannot be longer than
there are tables (`Store.toJsonFrom_fuel`).
-/

namespace ScriptHost.Lua.Store

variable {ρ : Renaming} {s t : Store}

/-! ## JSON that comes in -/

mutual

theorem Renamed.ofJson {s t : Store} (h : s.Renamed ρ t) (j : Json) :
    (s.ofJson j).1.Renamed ρ (t.ofJson j).1 ∧ (t.ofJson j).2 = (s.ofJson j).2.rename ρ := by
  cases j with
  | null | bool _ | float _ | str _ => exact ⟨h, rfl⟩
  | int n =>
    unfold Store.ofJson
    split <;> exact ⟨h, rfl⟩
  | arr items =>
    obtain ⟨hs, hv⟩ := h.ofJsonItems items
    have ht : ({ items := (t.ofJsonItems items).2.toArray, metatable := some listMeta } : Table) =
        Table.rename ρ
          { items := (s.ofJsonItems items).2.toArray, metatable := some listMeta } := by
      simp [Table.rename, hv]
    have hn := hs.newTable { items := (s.ofJsonItems items).2.toArray, metatable := some listMeta }
    have ha := hs.newTable_address
      { items := (s.ofJsonItems items).2.toArray, metatable := some listMeta }
    rw [← ht] at hn ha
    exact ⟨hn, ha⟩
  | obj fields =>
    obtain ⟨hs, hv⟩ := h.ofJsonFields fields
    have ht : ({ fields := (t.ofJsonFields fields).2.toArray } : Table) =
        Table.rename ρ { fields := (s.ofJsonFields fields).2.toArray } := by
      simp [Table.rename, hv]
    have hn := hs.newTable { fields := (s.ofJsonFields fields).2.toArray }
    have ha := hs.newTable_address { fields := (s.ofJsonFields fields).2.toArray }
    rw [← ht] at hn ha
    exact ⟨hn, ha⟩

theorem Renamed.ofJsonItems {s t : Store} (h : s.Renamed ρ t) (items : List Json) :
    (s.ofJsonItems items).1.Renamed ρ (t.ofJsonItems items).1 ∧
      (t.ofJsonItems items).2 = (s.ofJsonItems items).2.map (Value.rename ρ) := by
  cases items with
  | nil => exact ⟨h, rfl⟩
  | cons item rest =>
    obtain ⟨hs, hv⟩ := h.ofJson item
    obtain ⟨hr, hvs⟩ := hs.ofJsonItems rest
    exact ⟨hr, List.cons_eq_cons.mpr ⟨hv, hvs⟩⟩

theorem Renamed.ofJsonFields {s t : Store} (h : s.Renamed ρ t)
    (fields : List (String × Json)) :
    (s.ofJsonFields fields).1.Renamed ρ (t.ofJsonFields fields).1 ∧
      (t.ofJsonFields fields).2 = (s.ofJsonFields fields).2.map (renamePair ρ) := by
  cases fields with
  | nil => exact ⟨h, rfl⟩
  | cons field rest =>
    obtain ⟨name, item⟩ := field
    obtain ⟨hs, hv⟩ := h.ofJson item
    obtain ⟨hr, hvs⟩ := hs.ofJsonFields rest
    exact ⟨hr, List.cons_eq_cons.mpr ⟨congrArg (Value.string (Bytes.ofString name), ·) hv, hvs⟩⟩

end

/-! ## JSON that goes out -/

@[simp]
theorem isList_rename (x : Table) : isList (x.rename ρ) = isList x := by
  have hmeta : (x.metatable.map ρ.tables == some listMeta) = (x.metatable == some listMeta) := by
    cases x.metatable with
    | none => rfl
    | some m => simp [Bool.beq_eq_decide_eq, Renaming.tables_eq_listMeta]
  rw [isList, isList, Table.length_rename, Table.metatable_rename, hmeta]

theorem Renamed.isListKey (h : s.Renamed ρ t) (key : Value) :
    t.isListKey (key.rename ρ) = s.isListKey key := by
  cases key with
  | table a => simp only [Value.rename_table, Store.isListKey, h.table, isList_rename]
  | _ => rfl

@[simp]
theorem fieldName_rename (key : Value) (isList : Bool) :
    fieldName (key.rename ρ) isList = fieldName key isList := by
  cases key with
  | number n => cases n <;> rfl
  | _ => rfl

theorem itemsOf_rename (x : Table) : itemsOf (x.rename ρ) = (itemsOf x).map (Value.rename ρ) := by
  have hnil : (fun v : Value => !v.isNil) ∘ Value.rename ρ = fun v => !v.isNil := by
    funext v
    simp
  rw [itemsOf, itemsOf, Table.items_rename, Array.toList_map, List.takeWhile_map, hnil]

/-- A table comes out alike if what stands in it does. -/
theorem Renamed.tableToJson (h : s.Renamed ρ t) {f g : Value → Except NotJson Json}
    (hf : ∀ v : Value, g (v.rename ρ) = f v) (x : Table) :
    t.tableToJson g (x.rename ρ) = s.tableToJson f x := by
  have hitem : g ∘ Value.rename ρ = f := funext hf
  have hfield : t.fieldToJson g ∘ renamePair ρ = s.fieldToJson f := by
    funext field
    simp only [Function.comp_apply, fieldToJson, renamePair, fieldName_rename, h.isListKey, hf]
  rw [Store.tableToJson, Store.tableToJson, isList_rename, itemsOf_rename, Table.pairs_rename,
    List.mapM_map, List.mapM_map, hitem, hfield]

theorem Renamed.toJsonFrom (h : s.Renamed ρ t) (fuel : Nat) (path : List Nat) (v : Value) :
    t.toJsonFrom fuel (path.map ρ.tables) (v.rename ρ) = s.toJsonFrom fuel path v := by
  induction fuel generalizing path v with
  | zero => rfl
  | succ fuel ih =>
    cases v with
    | table a =>
      have hpath : (path.map ρ.tables).contains (ρ.tables a) = path.contains a := by
        simp
      have htable := h.tableToJson (ih (a :: path)) (s.table a)
      rw [Value.rename_table, Store.toJsonFrom, Store.toJsonFrom, hpath, h.table]
      exact congrArg _ htable
    | number n => cases n <;> rfl
    | _ => rfl

theorem tableToJson_empty (s : Store) (f : Value → Except NotJson Json) :
    s.tableToJson f {} = .ok (.ofFields []) := rfl

/-- Tables that differ and that the store has are not more than the store has. -/
theorem length_le_of_nodup {path : List Nat} (hp : path.Nodup)
    (hlt : ∀ a ∈ path, a < s.tables.size) : path.length ≤ s.tables.size := by
  have hsub : path ⊆ List.range s.tables.size := fun a ha => List.mem_range.mpr (hlt a ha)
  simpa using (hp.subperm hsub).length_le

/-- Once the fuel is greater than the number of tables, what comes out does not depend on it. -/
theorem toJsonFrom_fuel (s : Store) (fuel more : Nat) {path : List Nat} (hp : path.Nodup)
    (hlt : ∀ a ∈ path, a < s.tables.size) (hf : s.tables.size < fuel + path.length)
    (hm : s.tables.size < more + path.length) (v : Value) :
    s.toJsonFrom fuel path v = s.toJsonFrom more path v := by
  have hlength := length_le_of_nodup hp hlt
  cases fuel with
  | zero => omega
  | succ fuel =>
    obtain _ | more := more
    · omega
    cases v with
    | table a =>
      rw [toJsonFrom, toJsonFrom]
      by_cases hin : a ∈ path
      · simp [hin]
      · by_cases ha : a < s.tables.size
        · have hconvert : s.toJsonFrom fuel (a :: path) = s.toJsonFrom more (a :: path) := by
            refine funext (toJsonFrom_fuel s fuel more (List.nodup_cons.mpr ⟨hin, hp⟩) ?_ ?_ ?_)
            · exact List.forall_mem_cons.mpr ⟨ha, hlt⟩
            · rw [List.length_cons]
              omega
            · rw [List.length_cons]
              omega
          rw [hconvert]
        · -- A table that is not there is empty, so that nothing in it is converted.
          have hnone : s.table a = {} := by
            simp [table, Array.getElem?_eq_none (Nat.le_of_not_lt ha)]
          rw [hnone, tableToJson_empty, tableToJson_empty]
    | number n => cases n <;> rfl
    | _ => rfl

theorem toJson_fuel (s : Store) {fuel : Nat} (hf : s.tables.size < fuel) (v : Value) :
    s.toJson v = s.toJsonFrom fuel [] v :=
  s.toJsonFrom_fuel _ fuel List.nodup_nil (by simp) (by simp) hf v

/-- Values that differ by the renaming come out as the same JSON. -/
theorem Renamed.toJson (h : s.Renamed ρ t) (v : Value) : t.toJson (v.rename ρ) = s.toJson v := by
  have hs : s.tables.size < max s.tables.size t.tables.size + 1 := by omega
  have ht : t.tables.size < max s.tables.size t.tables.size + 1 := by omega
  rw [s.toJson_fuel hs, t.toJson_fuel ht]
  exact h.toJsonFrom _ [] v

end ScriptHost.Lua.Store

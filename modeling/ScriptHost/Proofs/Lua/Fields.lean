import Mathlib.Data.List.Nodup
import ScriptHost.Lua.Table

/-!
# Fields under texts

What becomes of the fields of a table as fields are set under texts: each takes the place of the
one that is there or comes last (`Table.fields_setField`), and fields that are set in the order in
which they are there leave nothing of what there was (`Table.withFields_eq`).
-/

namespace ScriptHost.Lua

section

variable {α : Type} {p : α → Bool} {xs : List α} {i : Nat} {x y : α}

/-- What does not count can be replaced by what does not count. -/
theorem filter_set_of_not (hx : xs[i]? = some x) (hpx : ¬ p x) (hpy : ¬ p y) :
    (xs.set i y).filter p = xs.filter p := by
  induction xs generalizing i with
  | nil => rfl
  | cons z rest ih =>
    cases i with
    | zero =>
      rw [List.getElem?_cons_zero, Option.some_inj] at hx
      rw [List.set_cons_zero, List.filter_cons_of_neg hpy, hx, List.filter_cons_of_neg hpx]
    | succ i =>
      rw [List.getElem?_cons_succ] at hx
      rw [List.set_cons_succ, List.filter_cons, List.filter_cons, ih hx]

end

theorem Value.rawEquals_string {v : Value} {name : Bytes} :
    v.rawEquals (.string name) ↔ v = .string name := by
  cases v <;> simp [Value.rawEquals]

theorem Value.string_rawEquals {v : Value} {name : Bytes} :
    (Value.string name).rawEquals v ↔ v = .string name := by
  cases v with
  | string text => simp [Value.rawEquals, eq_comm (a := name)]
  | _ => simp [Value.rawEquals]

namespace Table

variable (t : Table) {name : Bytes}

/-- Setting a field under a text takes the place of the field that is there, or comes last. -/
theorem fields_setField (name : Bytes) (v : Value) :
    (∃ i old, t.fields.toList[i]? = some (.string name, old) ∧
      (∀ j < i, ∀ field, t.fields.toList[j]? = some field → field.1 ≠ .string name) ∧
      (t.setField (.string name) v).fields.toList = t.fields.toList.set i (.string name, v)) ∨
    (∀ field ∈ t.fields, field.1 ≠ .string name) ∧
      (t.setField (.string name) v).fields.toList =
        t.fields.toList ++ if v.isNil then [] else [(.string name, v)] := by
  unfold setField
  split
  · rename_i i hi
    obtain ⟨hlt, hname, hbefore⟩ := Array.findIdx?_eq_some_iff_getElem.1 hi
    refine .inl ⟨i, t.fields[i].2, ?_, fun j hj field hf => ?_, Array.toList_setIfInBounds⟩
    · rw [Array.getElem?_toList, Array.getElem?_eq_getElem hlt, ← Value.rawEquals_string.1 hname]
    · have hjlt : j < t.fields.size := Nat.lt_trans hj hlt
      rw [Array.getElem?_toList, Array.getElem?_eq_getElem hjlt, Option.some_inj] at hf
      rw [← hf]
      exact fun he => hbefore j hj (Value.rawEquals_string.2 he)
  · rename_i hnone
    refine .inr ⟨fun field hf he => ?_, ?_⟩
    · have := Array.findIdx?_eq_none_iff.1 hnone field hf
      rw [Value.rawEquals_string.2 he] at this
      cases this
    · cases v.isNil with
      | true => simp
      | false => simp [Value.asKey]

@[simp]
theorem items_setField (key v : Value) : (t.setField key v).items = t.items := by
  unfold setField
  split
  · rfl
  · split <;> rfl

@[simp]
theorem metatable_setField (key v : Value) : (t.setField key v).metatable = t.metatable := by
  unfold setField
  split
  · rfl
  · split <;> rfl

/-- Fields that are set under texts do not come in the way of what counts no such texts. -/
theorem filter_setField {p : Value × Value → Bool} (hp : ∀ v, ¬ p (.string name, v)) (v : Value) :
    (t.setField (.string name) v).fields.toList.filter p = t.fields.toList.filter p := by
  obtain ⟨i, old, hi, -, hf⟩ | ⟨-, hf⟩ := t.fields_setField name v
  · rw [hf, filter_set_of_not hi (hp old) (hp v)]
  · rw [hf, List.filter_append]
    cases v.isNil with
    | true => simp
    | false => simp [hp v]

theorem field_eq (key : Value) :
    t.field key =
      ((t.fields.toList.filter fun field => field.1.rawEquals key).head?.map (·.2)).getD .nil := by
  rw [List.head?_filter, Array.find?_toList, field]
  cases t.fields.find? fun field => field.1.rawEquals key <;> rfl

/-- Other fields stay. -/
theorem field_setField_of_ne {key : Value} (hk : key ≠ .string name) (v : Value) :
    (t.setField (.string name) v).field key = t.field key := by
  rw [field_eq, field_eq, filter_setField]
  intro v h
  exact hk (Value.string_rawEquals.1 h)

/-- A field is what it was set to. -/
theorem getString_setField (name : Bytes) (v : Value) :
    (t.setField (.string name) v).getString name = v := by
  rw [getString, field_eq, List.head?_filter]
  obtain ⟨i, old, hi, hbefore, hf⟩ | ⟨hother, hf⟩ := t.fields_setField name v
  · have hlt : i < t.fields.toList.length := (List.getElem?_eq_some_iff.1 hi).1
    have hfound : ((t.fields.toList.set i (.string name, v)).find? fun field =>
        field.1.rawEquals (.string name)) = some (.string name, v) := by
      refine List.find?_eq_some_iff_getElem.2 ⟨Value.rawEquals_string.2 rfl, i, by simpa using hlt,
        List.getElem_set_self _, fun j hj => ?_⟩
      have hne := hbefore j hj _ (List.getElem?_eq_getElem (Nat.lt_trans hj hlt))
      rw [List.getElem_set_ne (Nat.ne_of_gt hj), Bool.not_eq_true', ← Bool.not_eq_true,
        Value.rawEquals_string]
      exact hne
    rw [hf, hfound]
    rfl
  · rw [hf, List.find?_append]
    have hnone : (t.fields.toList.find? fun field => field.1.rawEquals (.string name)) = none := by
      simp only [List.find?_eq_none, Value.rawEquals_string]
      exact fun field hm => hother field (by simpa using hm)
    rw [hnone]
    cases hv : v.isNil with
    | true => 
      cases v <;> first | rfl | cases hv
    | false => simp [Value.rawEquals]

/-- Setting fields under texts leaves what stands under other keys. -/
theorem get_setField_of_ne {key : Value} (hk : key ≠ .string name) (v : Value) :
    (t.setField (.string name) v).get key = t.get key := by
  simp only [get, items_setField, t.field_setField_of_ne hk]

theorem getString_withFields_of_notMem {fields : List (String × Value)}
    (hn : name ∉ fields.map fun field => Bytes.ofString field.1) :
    (t.withFields fields).getString name = t.getString name := by
  induction fields generalizing t with
  | nil => rfl
  | cons field rest ih =>
    rw [List.map_cons, List.mem_cons, not_or] at hn
    refine (ih _ hn.2).trans (t.field_setField_of_ne ?_ field.2)
    rintro ⟨⟩
    exact hn.1 rfl

/-- Each of the fields is what it was set to, if none is set twice. -/
theorem getString_withFields {fields : List (String × Value)}
    (hn : (fields.map fun field => Bytes.ofString field.1).Nodup) {field : String × Value}
    (hf : field ∈ fields) :
    (t.withFields fields).getString (Bytes.ofString field.1) = field.2 := by
  induction fields generalizing t with
  | nil => cases hf
  | cons first rest ih =>
    rw [List.map_cons, List.nodup_cons] at hn
    rcases List.mem_cons.1 hf with rfl | hf
    · exact (getString_withFields_of_notMem _ hn.1).trans (t.getString_setField _ _)
    · exact ih _ hn.2 hf

end Table

/-! ## Fields that are set together -/

namespace Table

variable {t : Table}

/-- Fields under texts, as a table holds them. -/
def entries (fields : List (String × Value)) : List (Value × Value) :=
  fields.map fun field => (.string (Bytes.ofString field.1), field.2)

/-- Setting a field that is there takes its place. -/
theorem toList_setField_of_eq {before behind : List (Value × Value)} {name : Bytes} {old : Value}
    (ht : t.fields.toList = before ++ (.string name, old) :: behind)
    (hb : ∀ field ∈ before, field.1 ≠ .string name) (v : Value) :
    (t.setField (.string name) v).fields.toList = before ++ (.string name, v) :: behind := by
  have hplace : t.fields.toList[before.length]? = some (.string name, old) := by
    rw [ht, List.getElem?_append_right (Nat.le_refl _), Nat.sub_self, List.getElem?_cons_zero]
  obtain ⟨i, found, hi, hfirst, hf⟩ | ⟨hnone, -⟩ := t.fields_setField name v
  · obtain hlt | rfl | hgt := Nat.lt_trichotomy i before.length
    · rw [ht, List.getElem?_append_left hlt] at hi
      exact absurd rfl (hb _ (List.mem_of_getElem? hi))
    · rw [hf, ht, List.set_append_right _ _ (Nat.le_refl _), Nat.sub_self, List.set_cons_zero]
    · exact absurd rfl (hfirst _ hgt _ hplace)
  · exact absurd rfl (hnone _ (Array.mem_toList_iff.1 (List.mem_of_getElem? hplace)))

/-- Setting a field that is not there adds it. -/
theorem toList_setField_of_notMem {name : Bytes} (ht : ∀ field ∈ t.fields, field.1 ≠ .string name)
    {v : Value} (hv : v.isNil = false) :
    (t.setField (.string name) v).fields.toList = t.fields.toList ++ [(.string name, v)] := by
  obtain ⟨i, old, hi, -, -⟩ | ⟨-, hf⟩ := t.fields_setField name v
  · exact absurd rfl (ht _ (Array.mem_toList_iff.1 (List.mem_of_getElem? hi)))
  · rw [hf, hv]
    rfl

/-- Setting fields that are all there, in their order, or that all are not, leaves nothing of what
there was. -/
theorem toList_withFields {fields : List (String × Value)} {before : List (Value × Value)}
    (hn : (fields.map fun field => Bytes.ofString field.1).Nodup)
    (hv : ∀ field ∈ fields, field.2.isNil = false)
    (hb : ∀ pair ∈ before, ∀ field ∈ fields, pair.1 ≠ .string (Bytes.ofString field.1))
    (ht : t.fields.toList = before ∨ ∃ old, t.fields.toList = before ++ old ∧
      old.map (·.1) = (entries fields).map (·.1)) :
    (t.withFields fields).fields.toList = before ++ entries fields := by
  induction fields generalizing t before with
  | nil =>
    obtain ht | ⟨old, ht, hold⟩ := ht
    · exact ht.trans (List.append_nil _).symm
    · rw [List.map_eq_nil_iff.1 hold] at ht
      exact ht
  | cons field rest ih =>
    rw [List.map_cons, List.nodup_cons] at hn
    rw [List.forall_mem_cons] at hv
    have hfirst : ∀ pair ∈ before, pair.1 ≠ .string (Bytes.ofString field.1) :=
      fun pair hp => hb pair hp field List.mem_cons_self
    have hnext : ∀ pair ∈ before ++ [(.string (Bytes.ofString field.1), field.2)], ∀ other ∈ rest,
        pair.1 ≠ .string (Bytes.ofString other.1) := by
      intro pair hp other ho
      obtain hp | hp := List.mem_append.1 hp
      · exact hb pair hp other (List.mem_cons_of_mem _ ho)
      · rw [List.mem_singleton.1 hp]
        exact fun he => hn.1 (List.mem_map.2 ⟨other, ho, (Value.string.inj he).symm⟩)
    have hset := ih (t := t.setField (.string (Bytes.ofString field.1)) field.2) hn.2 hv.2 hnext ?_
    · exact hset.trans (List.append_assoc _ _ _)
    · obtain ht | ⟨old, ht, hold⟩ := ht
      · left
        rw [toList_setField_of_notMem (fun pair hp => ?_) hv.1, ht]
        exact hfirst pair (ht ▸ Array.mem_toList_iff.2 hp)
      · obtain _ | ⟨⟨key, value⟩, old⟩ := old
        · cases hold
        · rw [entries, List.map_cons, List.map_cons, List.map_cons, List.cons.injEq] at hold
          obtain ⟨rfl, hold⟩ := hold
          exact .inr ⟨old, by rw [toList_setField_of_eq ht hfirst, List.append_cons], hold⟩

theorem items_withFields (t : Table) (fields : List (String × Value)) :
    (t.withFields fields).items = t.items := by
  induction fields generalizing t with
  | nil => rfl
  | cons field rest ih => exact (ih _).trans (t.items_setField _ _)

theorem metatable_withFields (t : Table) (fields : List (String × Value)) :
    (t.withFields fields).metatable = t.metatable := by
  induction fields generalizing t with
  | nil => rfl
  | cons field rest ih => exact (ih _).trans (t.metatable_setField _ _)

theorem withFields_eq {fields : List (String × Value)}
    (hn : (fields.map fun field => Bytes.ofString field.1).Nodup)
    (hv : ∀ field ∈ fields, field.2.isNil = false)
    (ht : t.fields = #[] ∨ t.fields.toList.map (·.1) = (entries fields).map (·.1)) :
    t.withFields fields = { t with fields := (entries fields).toArray } := by
  have hfields : (t.withFields fields).fields.toList = [] ++ entries fields := by
    refine toList_withFields hn hv (fun _ hm => absurd hm List.not_mem_nil) ?_
    exact ht.imp (fun h => by rw [h]) fun h => ⟨t.fields.toList, rfl, h⟩
  have hitems := t.items_withFields fields
  have hmetatable := t.metatable_withFields fields
  generalize t.withFields fields = u at *
  obtain ⟨items, fs, metatable⟩ := u
  rw [List.nil_append] at hfields
  rw [← hfields, ← hitems, ← hmetatable]

end Table

end ScriptHost.Lua

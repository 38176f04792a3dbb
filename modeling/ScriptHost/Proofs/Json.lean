import Mathlib.Data.List.Induction
import Mathlib.Data.String.Basic
import ScriptHost.Decimal.Double
import ScriptHost.Json

/-!
# JSON

The fields of an object are kept in ascending order of their names (`Json.ascending_sortFields`),
and fields that are in order already stay as they are (`Json.sortFields_eq_self`).

An integer of JSON may have 64 bits without sign. Where integers have 64 bits with sign, a greater
one is a float: `Json.narrowed` says what a value has become there, and `Json.narrowed_eq_iff` that
a value without floats is unchanged exactly if none of its integers is too great.
-/

namespace ScriptHost

/-! ## Fields in order -/

namespace Json

variable {α : Type} {fields : List (String × α)}

theorem lookup_cons_eq (name : String) (value : α) (fields : List (String × α)) (m : String) :
    ((name, value) :: fields).lookup m = if m = name then some value else fields.lookup m := by
  by_cases h : m = name
  · rw [h, List.lookup_cons_self, if_pos rfl]
  · rw [List.lookup_cons, beq_false_of_ne h, if_neg h]

theorem lookup_insertField (name : String) (value : α) (fields : List (String × α)) (m : String) :
    (insertField name value fields).lookup m =
      if m = name then some value else fields.lookup m := by
  induction fields with
  | nil => exact lookup_cons_eq name value [] m
  | cons field rest ih =>
    obtain ⟨other, old⟩ := field
    unfold insertField
    by_cases hsame : name = other
    · subst hsame
      rw [if_pos rfl, lookup_cons_eq, lookup_cons_eq]
      by_cases h : m = name
      · rw [if_pos h, if_pos h]
      · rw [if_neg h, if_neg h, if_neg h]
    · rw [if_neg hsame]
      split
      · exact lookup_cons_eq name value _ m
      · rw [lookup_cons_eq, lookup_cons_eq, ih]
        by_cases h : m = other
        · rw [if_pos h, if_pos h, if_neg (h ▸ Ne.symm hsame)]
        · rw [if_neg h, if_neg h]

/-- Of fields with one name the last stays. -/
theorem lookup_sortFields (fields : List (String × α)) (m : String) :
    (sortFields fields).lookup m = fields.reverse.lookup m := by
  induction fields using List.reverseRecOn with
  | nil => rfl
  | append_singleton fields field ih =>
    obtain ⟨name, value⟩ := field
    rw [sortFields, List.foldl_append, List.foldl_cons, List.foldl_nil, lookup_insertField,
      List.reverse_append, List.reverse_singleton, List.singleton_append, lookup_cons_eq, ← ih]
    rfl

/-- The names of fields ascend, so that each stands there once. -/
def Ascending (fields : List (String × α)) : Prop := fields.Pairwise fun a b => a.1 < b.1

theorem fst_of_mem_insertField {name : String} {value : α} {fields : List (String × α)}
    {p : String × α} (h : p ∈ insertField name value fields) :
    p.1 = name ∨ ∃ q ∈ fields, p.1 = q.1 := by
  induction fields with
  | nil =>
    rw [insertField, List.mem_singleton] at h
    exact .inl (congrArg Prod.fst h)
  | cons field rest ih =>
    obtain ⟨other, old⟩ := field
    unfold insertField at h
    split at h
    · rcases List.mem_cons.1 h with h | h
      · exact .inl (congrArg Prod.fst h)
      · exact .inr ⟨p, List.mem_cons_of_mem _ h, rfl⟩
    split at h
    · rcases List.mem_cons.1 h with h | h
      · exact .inl (congrArg Prod.fst h)
      · exact .inr ⟨p, h, rfl⟩
    · rcases List.mem_cons.1 h with h | h
      · exact .inr ⟨(other, old), List.mem_cons_self, congrArg Prod.fst h⟩
      · rcases ih h with h | ⟨q, hq, h⟩
        · exact .inl h
        · exact .inr ⟨q, List.mem_cons_of_mem _ hq, h⟩

theorem Ascending.insertField {fields : List (String × α)} (h : Ascending fields) (name : String)
    (value : α) : Ascending (insertField name value fields) := by
  induction fields with
  | nil => exact List.pairwise_singleton _ _
  | cons field rest ih =>
    obtain ⟨other, old⟩ := field
    obtain ⟨hother, hrest⟩ := List.pairwise_cons.1 h
    unfold Json.insertField
    split
    · rename_i hsame
      exact List.pairwise_cons.2 ⟨fun p hp => hsame ▸ hother p hp, hrest⟩
    split
    · rename_i hlt
      refine List.pairwise_cons.2 ⟨fun p hp => ?_, h⟩
      rcases List.mem_cons.1 hp with rfl | hp
      · exact hlt
      · exact lt_trans hlt (hother p hp)
    · rename_i hne hnlt
      have hlt : other < name := lt_of_le_of_ne (not_lt.1 hnlt) (Ne.symm hne)
      refine List.pairwise_cons.2 ⟨fun p hp => ?_, ih hrest⟩
      rcases fst_of_mem_insertField hp with hp | ⟨q, hq, hp⟩
      · rw [hp]
        exact hlt
      · rw [hp]
        exact hother q hq

theorem ascending_sortFields (fields : List (String × α)) : Ascending (sortFields fields) := by
  induction fields using List.reverseRecOn with
  | nil => exact List.Pairwise.nil
  | append_singleton fields field ih =>
    rw [sortFields, List.foldl_append, List.foldl_cons, List.foldl_nil]
    exact ih.insertField field.1 field.2

/-- The order of fields depends on their names only. -/
theorem ascending_iff_names {fields : List (String × α)} :
    Ascending fields ↔ (fields.map Prod.fst).Pairwise (· < ·) := List.pairwise_map.symm

/-- A field whose name comes behind all others is put last. -/
theorem insertField_eq_concat {name : String} {value : α} {fields : List (String × α)}
    (h : ∀ field ∈ fields, field.1 < name) :
    insertField name value fields = fields ++ [(name, value)] := by
  induction fields with
  | nil => rfl
  | cons field rest ih =>
    obtain ⟨other, old⟩ := field
    obtain ⟨hlt, hrest⟩ := List.forall_mem_cons.1 h
    rw [insertField, if_neg (ne_of_gt hlt), if_neg (lt_asymm hlt), ih hrest, List.cons_append]

/-- Fields that are in order stay as they are. -/
theorem sortFields_eq_self {fields : List (String × α)} (h : Ascending fields) :
    sortFields fields = fields := by
  induction fields using List.reverseRecOn with
  | nil => rfl
  | append_singleton fields field ih =>
    obtain ⟨hfields, -, hlast⟩ := List.pairwise_append.1 h
    have hsorted := ih hfields
    rw [sortFields, List.foldl_append, List.foldl_cons, List.foldl_nil]
    rw [sortFields] at hsorted
    rw [hsorted]
    exact insertField_eq_concat fun other ho => hlast other ho field List.mem_cons_self

/-! ## Values without floats -/

instance (fields : List (String × α)) : Decidable (Ascending fields) :=
  inferInstanceAs (Decidable (fields.Pairwise fun a b => a.1 < b.1))

mutual

/-- A value without floats, as readers make them: its integers have 64 bits, with sign or without,
and the fields of its objects are in order. -/
def isPlain : Json → Bool
  | .null | .bool _ | .str _ => true
  | .int n => decide (Int64.minValue.toInt ≤ n ∧ n < UInt64.size)
  | .float _ => false
  | .arr items => arePlain items
  | .obj fields => decide (Ascending fields) && havePlain fields

def arePlain : List Json → Bool
  | [] => true
  | item :: rest => isPlain item && arePlain rest

def havePlain : List (String × Json) → Bool
  | [] => true
  | (_, value) :: rest => isPlain value && havePlain rest

end

mutual

/-- All integers of the value have 64 bits with sign. -/
def isNarrow : Json → Bool
  | .int n => decide (n ≤ Int64.maxValue.toInt)
  | .arr items => areNarrow items
  | .obj fields => haveNarrow fields
  | _ => true

def areNarrow : List Json → Bool
  | [] => true
  | item :: rest => isNarrow item && areNarrow rest

def haveNarrow : List (String × Json) → Bool
  | [] => true
  | (_, value) :: rest => isNarrow value && haveNarrow rest

end

mutual

/-- What a value has become where integers have 64 bits with sign: a greater one is the float next
to it. `ofFloat` is what becomes of floats. -/
def narrowed (ofFloat : Float → Json) : Json → Json
  | .int n =>
    if n ≤ Int64.maxValue.toInt then .int n else ofFloat (Double.ofRatio false ⟨n.toNat, 1⟩)
  | .float x => ofFloat x
  | .arr items => .arr (narrowedItems ofFloat items)
  | .obj fields => .obj (narrowedFields ofFloat fields)
  | other => other

def narrowedItems (ofFloat : Float → Json) : List Json → List Json
  | [] => []
  | item :: rest => narrowed ofFloat item :: narrowedItems ofFloat rest

def narrowedFields (ofFloat : Float → Json) : List (String × Json) → List (String × Json)
  | [] => []
  | (name, value) :: rest => (name, narrowed ofFloat value) :: narrowedFields ofFloat rest

end

theorem map_fst_narrowedFields (ofFloat : Float → Json) (fields : List (String × Json)) :
    (narrowedFields ofFloat fields).map Prod.fst = fields.map Prod.fst := by
  induction fields with
  | nil => rfl
  | cons field rest ih => rw [narrowedFields, List.map_cons, List.map_cons, ih]

theorem Ascending.narrowedFields {fields : List (String × Json)} (h : Ascending fields)
    (ofFloat : Float → Json) : Ascending (narrowedFields ofFloat fields) := by
  rw [ascending_iff_names, map_fst_narrowedFields, ← ascending_iff_names]
  exact h

variable {ofFloat : Float → Json}

mutual

/-- **Values that stay as they are** where integers have a sign. -/
theorem narrowed_eq_iff (hf : ∀ x n, ofFloat x ≠ .int n) {j : Json} (h : j.isPlain) :
    j.narrowed ofFloat = j ↔ j.isNarrow := by
  cases j with
  | null | bool _ | str _ => exact ⟨fun _ => rfl, fun _ => rfl⟩
  | int n =>
    rw [narrowed, isNarrow, decide_eq_true_iff]
    split
    · exact ⟨fun _ => ‹_›, fun _ => rfl⟩
    · exact ⟨fun he => absurd he (hf _ n), fun hn => absurd hn ‹_›⟩
  | float x => cases h
  | arr items =>
    rw [narrowed, isNarrow, Json.arr.injEq]
    exact narrowedItems_eq_iff hf h
  | obj fields =>
    rw [narrowed, isNarrow, Json.obj.injEq]
    exact narrowedFields_eq_iff hf ((Bool.and_eq_true _ _).mp h).2

theorem narrowedItems_eq_iff (hf : ∀ x n, ofFloat x ≠ .int n) {items : List Json}
    (h : arePlain items) : narrowedItems ofFloat items = items ↔ areNarrow items := by
  cases items with
  | nil => exact ⟨fun _ => rfl, fun _ => rfl⟩
  | cons item rest =>
    obtain ⟨hitem, hrest⟩ := (Bool.and_eq_true _ _).mp h
    rw [narrowedItems, areNarrow, List.cons.injEq, Bool.and_eq_true, narrowed_eq_iff hf hitem,
      narrowedItems_eq_iff hf hrest]

theorem narrowedFields_eq_iff (hf : ∀ x n, ofFloat x ≠ .int n) {fields : List (String × Json)}
    (h : havePlain fields) : narrowedFields ofFloat fields = fields ↔ haveNarrow fields := by
  cases fields with
  | nil => exact ⟨fun _ => rfl, fun _ => rfl⟩
  | cons field rest =>
    obtain ⟨name, value⟩ := field
    obtain ⟨hvalue, hrest⟩ := (Bool.and_eq_true _ _).mp h
    rw [narrowedFields, haveNarrow, List.cons.injEq, Prod.mk.injEq, Bool.and_eq_true,
      narrowed_eq_iff hf hvalue, narrowedFields_eq_iff hf hrest]
    exact and_congr_left fun _ => and_iff_right rfl

end

end Json

end ScriptHost

import Mathlib.Data.List.TakeWhile
import ScriptHost.Proofs.Json
import ScriptHost.Proofs.Lua.Bytes
import ScriptHost.Proofs.Lua.Incoming
import ScriptHost.Proofs.Lua.Interchange

/-!
# JSON that goes out of a store again

A value that stands for JSON comes out as that JSON (`Store.Shows.toJson`), but for integers that
have no room: an empty list is a list by its metatable, null is a value of its own, and the names of
fields are texts. Tables that stand for JSON do not stand in themselves, since what stands in one is
less deep than what the table stands for (`Store.Shows.depth_eq`); so no walk over them goes in a
circle.
-/

namespace ScriptHost

namespace Json

mutual

/-- How deep lists and objects stand inside each other. -/
def depth : Json → Nat
  | .arr items => depthItems items + 1
  | .obj fields => depthFields fields + 1
  | _ => 0

def depthItems : List Json → Nat
  | [] => 0
  | item :: rest => max (depth item) (depthItems rest)

def depthFields : List (String × Json) → Nat
  | [] => 0
  | (_, value) :: rest => max (depth value) (depthFields rest)

end

end Json

namespace Lua

/-- What becomes of a float on its way out. -/
def ofFloat (x : Float) : Json := if x.isFinite then .float x else .null

theorem ofFloat_ne_int (x : Float) (n : Int) : ofFloat x ≠ .int n := by
  unfold ofFloat
  split <;> exact Json.noConfusion

namespace Store

open Json (narrowed narrowedItems narrowedFields depth depthItems depthFields)

variable {s : Store} {first first' a : Nat} {v : Value} {j k : Json}

/-! ## What a value stands for -/

/-- A table stands for a list or for an object. -/
theorem Shows.of_table (h : s.Shows first (.table a) j) :
    (∃ items vs, j = .arr items ∧
      s.table a = { items := vs.toArray, metatable := some listMeta } ∧
      s.ShowsItems first vs items) ∨
    ∃ fields vs, j = .obj fields ∧ s.table a = { fields := vs.toArray } ∧
      s.ShowsFields first vs fields := by
  cases j with
  | null | bool _ | float _ | str _ =>
    unfold Shows at h
    cases h
  | int n =>
    unfold Shows at h
    split at h <;> cases h
  | arr items =>
    unfold Shows at h
    obtain ⟨b, vs, hb, -, -, ht, hs⟩ := h
    cases hb
    exact .inl ⟨items, vs, rfl, ht, hs⟩
  | obj fields =>
    unfold Shows at h
    obtain ⟨b, vs, hb, -, -, ht, hs⟩ := h
    cases hb
    exact .inr ⟨fields, vs, rfl, ht, hs⟩

/-- What is no table stands neither for a list nor for an object. -/
theorem Shows.depth_eq_zero (h : s.Shows first v j) (hv : ∀ a, v ≠ .table a) : j.depth = 0 := by
  cases j with
  | arr items =>
    unfold Shows at h
    obtain ⟨a, -, ha, -⟩ := h
    exact absurd ha (hv a)
  | obj fields =>
    unfold Shows at h
    obtain ⟨a, -, ha, -⟩ := h
    exact absurd ha (hv a)
  | _ => rfl

theorem Shows.ne_table_of_depth (h : s.Shows first v j) (hj : j.depth = 0) (a : Nat) :
    v ≠ .table a := by
  rintro rfl
  obtain ⟨items, vs, rfl, -⟩ | ⟨fields, vs, rfl, -⟩ := h.of_table
  · cases hj
  · cases hj

mutual

/-- All JSON that a value stands for is equally deep. -/
theorem Shows.depth_eq {s : Store} {first first' : Nat} {v : Value} {j k : Json}
    (h : s.Shows first v j) (h' : s.Shows first' v k) : j.depth = k.depth := by
  cases j with
  | null | bool _ | int _ | float _ | str _ =>
    exact (h'.depth_eq_zero (h.ne_table_of_depth rfl)).symm
  | arr items =>
    unfold Shows at h
    obtain ⟨a, vs, rfl, -, -, ht, hs⟩ := h
    obtain ⟨others, ws, rfl, ht', hs'⟩ | ⟨fields, ws, -, ht', -⟩ := h'.of_table
    · obtain rfl : vs = ws := by simpa using congrArg Table.items (ht.symm.trans ht')
      exact congrArg (· + 1) (hs.depth_eq hs')
    · cases congrArg Table.metatable (ht.symm.trans ht')
  | obj fields =>
    unfold Shows at h
    obtain ⟨a, vs, rfl, -, -, ht, hs⟩ := h
    obtain ⟨items, ws, -, ht', -⟩ | ⟨others, ws, rfl, ht', hs'⟩ := h'.of_table
    · cases congrArg Table.metatable (ht.symm.trans ht')
    · obtain rfl : vs = ws := by simpa using congrArg Table.fields (ht.symm.trans ht')
      exact congrArg (· + 1) (hs.depth_eq hs')

theorem ShowsItems.depth_eq {s : Store} {first first' : Nat} {vs : List Value}
    {items others : List Json} (h : s.ShowsItems first vs items)
    (h' : s.ShowsItems first' vs others) : depthItems items = depthItems others := by
  cases items with
  | nil =>
    unfold ShowsItems at h
    cases others with
    | nil => rfl
    | cons other rest =>
      unfold ShowsItems at h'
      obtain ⟨v, ws, hv, -⟩ := h'
      cases h.symm.trans hv
  | cons item rest =>
    unfold ShowsItems at h
    obtain ⟨v, ws, rfl, hitem, hrest⟩ := h
    cases others with
    | nil => 
      unfold ShowsItems at h'
      cases h'
    | cons other others =>
      unfold ShowsItems at h'
      obtain ⟨w, xs, hw, hother, hothers⟩ := h'
      cases hw
      exact congrArg₂ max (hitem.depth_eq hother) (hrest.depth_eq hothers)

theorem ShowsFields.depth_eq {s : Store} {first first' : Nat} {vs : List (Value × Value)}
    {fields others : List (String × Json)} (h : s.ShowsFields first vs fields)
    (h' : s.ShowsFields first' vs others) : depthFields fields = depthFields others := by
  cases fields with
  | nil =>
    unfold ShowsFields at h
    cases others with
    | nil => rfl
    | cons other rest =>
      unfold ShowsFields at h'
      obtain ⟨v, ws, hv, -⟩ := h'
      cases h.symm.trans hv
  | cons field rest =>
    obtain ⟨name, item⟩ := field
    unfold ShowsFields at h
    obtain ⟨v, ws, rfl, hitem, hrest⟩ := h
    cases others with
    | nil => 
      unfold ShowsFields at h'
      cases h'
    | cons other others =>
      obtain ⟨name', other⟩ := other
      unfold ShowsFields at h'
      obtain ⟨w, xs, hw, hother, hothers⟩ := h'
      obtain ⟨hpair, rfl⟩ := List.cons.inj hw
      obtain ⟨-, rfl⟩ := Prod.mk.inj hpair
      exact congrArg₂ max (hitem.depth_eq hother) (hrest.depth_eq hothers)

end

/-! ## The way out -/

theorem Shows.isNil_eq_false (h : s.Shows first v j) : v.isNil = false := by
  cases j with
  | int n =>
    unfold Shows at h
    rw [h]
    split <;> rfl
  | null | bool _ | float _ | str _ =>
    unfold Shows at h
    rw [h]
    rfl
  | arr items =>
    unfold Shows at h
    obtain ⟨a, -, rfl, -⟩ := h
    rfl
  | obj fields =>
    unfold Shows at h
    obtain ⟨a, -, rfl, -⟩ := h
    rfl

/-- The tables on a path stand for more than what is behind them. -/
def Above (s : Store) (first depth : Nat) (path : List Nat) : Prop :=
  ∀ a ∈ path, ∃ k, s.Shows first (.table a) k ∧ depth < k.depth

theorem Above.mono {path : List Nat} {d e : Nat} (h : s.Above first e path) (hd : d ≤ e) :
    s.Above first d path := fun a ha =>
  (h a ha).imp fun _ hk => ⟨hk.1, Nat.lt_of_le_of_lt hd hk.2⟩

theorem Above.cons {path : List Nat} {d : Nat} (h : s.Above first j.depth path)
    (hj : s.Shows first (.table a) j) (hd : d < j.depth) : s.Above first d (a :: path) := by
  refine List.forall_mem_cons.2 ⟨⟨j, hj, hd⟩, h.mono (Nat.le_of_lt hd)⟩

/-- A table that stands for something is not on the path to it. -/
theorem Above.contains_eq_false {path : List Nat} (h : s.Above first j.depth path)
    (hj : s.Shows first (.table a) j) : path.contains a = false := by
  rw [Bool.eq_false_iff, ne_eq, List.contains_iff_mem]
  intro ha
  obtain ⟨k, hk, hlt⟩ := h a ha
  exact Nat.ne_of_lt hlt (hj.depth_eq hk)

mutual

theorem Shows.toJsonFrom {s : Store} {first fuel : Nat} {path : List Nat} {v : Value} {j : Json}
    (h : s.Shows first v j) (hj : j.isPlain) (hfuel : j.depth < fuel)
    (hpath : s.Above first j.depth path) :
    s.toJsonFrom fuel path v = .ok (j.narrowed ofFloat) := by
  obtain ⟨fuel, rfl⟩ := Nat.exists_eq_add_one_of_ne_zero (Nat.ne_zero_of_lt hfuel)
  have hshows := h
  cases j with
  | null | bool _ =>
    unfold Shows at h
    rw [h]
    rfl
  | int n =>
    obtain ⟨hlow, -⟩ := of_decide_eq_true hj
    unfold Shows at h
    rw [h, narrowed]
    split
    · rename_i hle
      have hn : (Int64.ofInt n).toInt = n := Int64.toInt_ofInt_of_le hlow (Int.lt_add_one_of_le hle)
      show Except.ok (Json.int (Int64.ofInt n).toInt) = _
      rw [hn]
    · rfl
  | float x => cases hj
  | str t =>
    unfold Shows at h
    rw [h, Store.toJsonFrom, Bytes.text?_ofString]
    rfl
  | arr items =>
    unfold Shows at h
    obtain ⟨a, vs, rfl, -, -, ht, hs⟩ := h
    obtain ⟨hitems, hnil⟩ := hs.toJsonFrom hj (Nat.lt_of_succ_lt_succ hfuel)
      (hpath.cons hshows (Nat.lt_succ_self _))
    have hlist : isList { items := vs.toArray, metatable := some listMeta } = true := by
      rw [isList, beq_self_eq_true, Bool.or_true]
    have hof : itemsOf { items := vs.toArray, metatable := some listMeta } = vs :=
      List.takeWhile_eq_self_iff.2 fun v hv => by rw [hnil v hv]; rfl
    rw [Store.toJsonFrom, hpath.contains_eq_false hshows, ht, if_neg Bool.false_ne_true,
      tableToJson, if_pos hlist, hof, hitems]
    rfl
  | obj fields =>
    unfold Shows at h
    obtain ⟨a, vs, rfl, -, -, ht, hs⟩ := h
    obtain ⟨hasc, hplain⟩ := (Bool.and_eq_true _ _).mp hj
    obtain ⟨hfields, hnil⟩ := hs.toJsonFrom hplain (Nat.lt_of_succ_lt_succ hfuel)
      (hpath.cons hshows (Nat.lt_succ_self _))
    have hpairs : Table.pairs { fields := vs.toArray } = vs :=
      List.filter_eq_self.2 fun pair hp => by rw [hnil pair hp]; rfl
    rw [Store.toJsonFrom, hpath.contains_eq_false hshows, ht, if_neg Bool.false_ne_true]
    show Except.map Json.ofFields ((Table.pairs _).mapM _) = _
    rw [hpairs, hfields]
    show Except.ok (Json.ofFields (narrowedFields ofFloat fields)) = _
    rw [Json.ofFields, Json.sortFields_eq_self ((of_decide_eq_true hasc).narrowedFields _)]
    rfl

theorem ShowsItems.toJsonFrom {s : Store} {first fuel : Nat} {path : List Nat} {vs : List Value}
    {items : List Json} (h : s.ShowsItems first vs items) (hi : Json.arePlain items)
    (hfuel : depthItems items < fuel) (hpath : s.Above first (depthItems items) path) :
    vs.mapM (s.toJsonFrom fuel path) = .ok (narrowedItems ofFloat items) ∧
      ∀ v ∈ vs, v.isNil = false := by
  cases items with
  | nil =>
    unfold ShowsItems at h
    rw [h]
    exact ⟨rfl, List.forall_mem_nil _⟩
  | cons item rest =>
    unfold ShowsItems at h
    obtain ⟨v, ws, rfl, hitem, hrest⟩ := h
    obtain ⟨hi, hr⟩ := (Bool.and_eq_true _ _).mp hi
    obtain ⟨hlt, hlt'⟩ := Nat.max_lt.1 hfuel
    have hfirst := hitem.toJsonFrom hi hlt (hpath.mono (Nat.le_max_left _ _))
    obtain ⟨hothers, hnil⟩ := hrest.toJsonFrom hr hlt' (hpath.mono (Nat.le_max_right _ _))
    refine ⟨?_, List.forall_mem_cons.2 ⟨hitem.isNil_eq_false, hnil⟩⟩
    rw [List.mapM_cons, hfirst, hothers]
    rfl

theorem ShowsFields.toJsonFrom {s : Store} {first fuel : Nat} {path : List Nat}
    {vs : List (Value × Value)} {fields : List (String × Json)} (h : s.ShowsFields first vs fields)
    (hi : Json.havePlain fields) (hfuel : depthFields fields < fuel)
    (hpath : s.Above first (depthFields fields) path) :
    vs.mapM (s.fieldToJson (s.toJsonFrom fuel path)) = .ok (narrowedFields ofFloat fields) ∧
      ∀ pair ∈ vs, pair.2.isNil = false := by
  cases fields with
  | nil =>
    unfold ShowsFields at h
    rw [h]
    exact ⟨rfl, List.forall_mem_nil _⟩
  | cons field rest =>
    obtain ⟨name, value⟩ := field
    unfold ShowsFields at h
    obtain ⟨v, ws, rfl, hitem, hrest⟩ := h
    obtain ⟨hi, hr⟩ := (Bool.and_eq_true _ _).mp hi
    obtain ⟨hlt, hlt'⟩ := Nat.max_lt.1 hfuel
    have hfirst := hitem.toJsonFrom hi hlt (hpath.mono (Nat.le_max_left _ _))
    obtain ⟨hothers, hnil⟩ := hrest.toJsonFrom hr hlt' (hpath.mono (Nat.le_max_right _ _))
    have hfield : s.fieldToJson (s.toJsonFrom fuel path) (.string (Bytes.ofString name), v) =
        .ok (name, value.narrowed ofFloat) := by
      rw [fieldToJson, fieldName, Bytes.text?_ofString]
      show (s.toJsonFrom fuel path v).bind _ = _
      rw [hfirst]
      rfl
    refine ⟨?_, List.forall_mem_cons.2 ⟨hitem.isNil_eq_false, hnil⟩⟩
    rw [List.mapM_cons, hfield, hothers]
    rfl

end

/-- **The way out.** A value that stands for JSON without floats comes out as that, but for integers
that have no room. -/
theorem Shows.toJson (h : s.Shows first v j) (hj : j.isPlain) :
    s.toJson v = .ok (j.narrowed ofFloat) := by
  have hfuel : s.tables.size < max s.tables.size j.depth + 1 :=
    Nat.lt_succ_of_le (Nat.le_max_left _ _)
  rw [s.toJson_fuel hfuel]
  exact h.toJsonFrom hj (Nat.lt_succ_of_le (Nat.le_max_right _ _)) (List.forall_mem_nil _)

end Store

end Lua

end ScriptHost

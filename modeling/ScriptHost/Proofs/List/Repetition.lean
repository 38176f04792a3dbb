import Mathlib.Data.List.Basic
import Mathlib.Data.List.Induction

/-!
# Lists without their repetitions

A list in which only the first of equal things is kept stands in the order in which the things came
up. Searching it finds what searching the list itself does (`find?_eraseDups`).
-/

namespace ScriptHost

theorem nodup_eraseDups {α : Type} [BEq α] [LawfulBEq α] (xs : List α) : xs.eraseDups.Nodup := by
  induction hn : xs.length using Nat.strongRecOn generalizing xs with
  | ind n ih =>
    subst hn
    cases xs with
    | nil => exact List.nodup_nil
    | cons x xs =>
      rw [List.eraseDups_cons, List.nodup_cons, List.mem_eraseDups]
      refine ⟨by simp, ih _ ?_ _ rfl⟩
      exact Nat.lt_succ_of_le (List.length_filter_le _ _)

theorem eraseDups_snoc {α : Type} [BEq α] [LawfulBEq α] [DecidableEq α] (xs : List α) (x : α) :
    (xs ++ [x]).eraseDups = if x ∈ xs then xs.eraseDups else xs.eraseDups ++ [x] := by
  rw [List.eraseDups_append]
  by_cases h : x ∈ xs <;> simp [List.removeAll, h, List.eraseDups_cons]

/-- Without repetitions, things stand in the order of their first places. -/
theorem pairwise_eraseDups {α : Type} [BEq α] [LawfulBEq α] [DecidableEq α] (xs : List α) :
    xs.eraseDups.Pairwise fun a b => xs.idxOf a < xs.idxOf b := by
  induction xs using List.reverseRecOn with
  | nil => exact .nil
  | append_singleton xs x ih =>
    have hold : xs.eraseDups.Pairwise fun a b => (xs ++ [x]).idxOf a < (xs ++ [x]).idxOf b := by
      refine ih.imp_of_mem fun {a b} ha hb hab => ?_
      rw [List.mem_eraseDups] at ha hb
      rwa [List.idxOf_append_of_mem ha, List.idxOf_append_of_mem hb]
    rw [eraseDups_snoc]
    split
    · exact hold
    · rename_i hx
      rw [List.pairwise_append]
      refine ⟨hold, List.pairwise_singleton _ _, fun a ha b hb => ?_⟩
      rw [List.mem_eraseDups] at ha
      rw [List.mem_singleton.1 hb, List.idxOf_append_of_mem ha, List.idxOf_append_of_notMem hx]
      exact Nat.lt_of_lt_of_le (List.idxOf_lt_length_of_mem ha) (Nat.le_add_right _ _)

/-- Repetitions can be taken out before or after a choice. -/
theorem eraseDups_filter {α : Type} [BEq α] [LawfulBEq α] [DecidableEq α] (p : α → Bool)
    (xs : List α) : (xs.filter p).eraseDups = xs.eraseDups.filter p := by
  induction xs using List.reverseRecOn with
  | nil => rfl
  | append_singleton xs x ih =>
    rw [List.filter_append, eraseDups_snoc]
    by_cases hp : p x
    · have hx : [x].filter p = [x] := by simp [hp]
      rw [hx, eraseDups_snoc, ih]
      by_cases hm : x ∈ xs
      · simp [hm, hp]
      · simp [hm, hp]
    · have hx : [x].filter p = [] := by simp [hp]
      rw [hx, List.append_nil, ih]
      by_cases hm : x ∈ xs
      · simp [hm]
      · simp [hm, hp]

theorem find?_eraseDups {α : Type} [BEq α] [LawfulBEq α] [DecidableEq α] (p : α → Bool)
    (xs : List α) : xs.eraseDups.find? p = xs.find? p := by
  induction xs using List.reverseRecOn with
  | nil => rfl
  | append_singleton xs x ih =>
    rw [eraseDups_snoc, List.find?_append]
    split
    · rename_i hm
      rw [ih]
      cases hf : xs.find? p with
      | some y => rfl
      | none => simpa using (List.find?_eq_none.1 hf x hm)
    · rw [List.find?_append, ih]

/-- The first of a list that is in a sublist of it, if nothing is repeated, is the first of that. -/
theorem find?_mem_of_sublist {α : Type} [DecidableEq α] {xs ys : List α} (h : xs.Sublist ys)
    (hn : ys.Nodup) : ys.find? (· ∈ xs) = xs.head? := by
  induction h with
  | slnil => rfl
  | @cons xs ys y h ih =>
    rw [List.nodup_cons] at hn
    have hy : y ∉ xs := fun hm => hn.1 (h.subset hm)
    rw [List.find?_cons_of_neg (by simpa using hy), ih hn.2]
  | cons_cons y h ih => exact List.find?_cons_of_pos (by simp)

end ScriptHost

import ScriptHost.Proofs.Text.Pieces
import ScriptHost.Proofs.Wasm.Text.Tokens
import ScriptHost.Wasm.Text.Mistake

/-!
# Lines of places

The line that a mistake is shown on is found by its place. It is the number of line feeds before
that place (`lineAt_linesOf`).
-/

namespace ScriptHost.Wasm.Text

open ScriptHost.Text (splitOnChar)
open String (ofList utf8Len)

theorem splitOn_newline (s : String) :
    s.splitOn "\n" = (splitOnChar '\n' s.toList).map ofList := Text.splitOn_ofList '\n' s

/-- The lines of a text without the empty one that a line feed at its end begins. -/
def dropEmptyLast (lines : List String) : List String :=
  if lines.getLast? = some "" then lines.dropLast else lines

theorem dropEmptyLast_cons (line : String) {lines : List String} (h : lines ≠ []) :
    dropEmptyLast (line :: lines) = line :: dropEmptyLast lines := by
  obtain ⟨next, rest, rfl⟩ := List.exists_cons_of_ne_nil h
  rw [dropEmptyLast, dropEmptyLast, List.getLast?_cons_cons]
  split <;> rfl

theorem dropEmptyLast_line {line : String} (h : line ≠ "") (lines : List String) :
    ∃ rest, dropEmptyLast (line :: lines) = line :: rest ∧
      ∀ line', (lines = [] → line' ≠ "") → dropEmptyLast (line' :: lines) = line' :: rest := by
  cases lines with
  | nil =>
    have hsingle {line : String} (h : line ≠ "") : dropEmptyLast [line] = [line] := by
      simp [dropEmptyLast, h]
    exact ⟨[], hsingle h, fun _ h' => hsingle (h' rfl)⟩
  | cons next lines =>
    exact ⟨_, dropEmptyLast_cons _ (List.cons_ne_nil _ _),
      fun _ _ => dropEmptyLast_cons _ (List.cons_ne_nil _ _)⟩

theorem lineAt_zero (lines : List String) : (lineAt 0 lines).1 = 0 := by
  cases lines with
  | nil => rfl
  | cons line rest => rw [lineAt, if_pos (Nat.zero_le _)]

theorem lineAt_cons_char (c : Char) (place : Nat) (line : List Char) (rest : List String) :
    (lineAt (c.utf8Size + place) (ofList (c :: line) :: rest)).1 =
      (lineAt place (ofList line :: rest)).1 := by
  have hsize : (ofList (c :: line)).utf8ByteSize = c.utf8Size + (ofList line).utf8ByteSize := by
    simp
  have hrest : c.utf8Size + place - (c.utf8Size + (ofList line).utf8ByteSize) - 1 =
      place - (ofList line).utf8ByteSize - 1 := by omega
  rw [lineAt, lineAt, hsize, hrest]
  simp only [Nat.add_le_add_iff_left]
  split <;> rfl

theorem lineAt_dropEmptyLast {before after : List Char} (h : after ≠ []) :
    (lineAt (Token.bytesOf before)
        (dropEmptyLast ((splitOnChar '\n' (before ++ after)).map ofList))).1 =
      before.count '\n' := by
  induction before with
  | nil => exact lineAt_zero _
  | cons c before ih =>
    rw [Token.bytesOf_cons, List.cons_append]
    by_cases hc : c = '\n'
    · subst hc
      have hnext : ¬ '\n'.utf8Size + Token.bytesOf before ≤ (ofList []).utf8ByteSize := by
        have : '\n'.utf8Size = 1 := rfl
        simp only [this, String.ofList_nil, String.utf8ByteSize_empty]
        omega
      have hplace : '\n'.utf8Size + Token.bytesOf before - (ofList []).utf8ByteSize - 1 =
          Token.bytesOf before := by
        have : '\n'.utf8Size = 1 := rfl
        simp only [this, String.ofList_nil, String.utf8ByteSize_empty]
        omega
      rw [splitOnChar, if_pos rfl, List.map_cons, dropEmptyLast_cons, lineAt, if_neg hnext, hplace,
        List.count_cons_self, ← ih]
      simp [Text.splitOnChar_ne_nil]
    · obtain ⟨piece, rest, hr, hcons⟩ := Text.splitOnChar_cons_ne hc (before ++ after)
      have hline : ofList (c :: piece) ≠ "" := by simp
      obtain ⟨lines, hlines, hlines'⟩ := dropEmptyLast_line hline (rest.map ofList)
      have hpiece : rest.map ofList = [] → ofList piece ≠ "" := by
        intro hrest hempty
        rw [List.map_eq_nil_iff] at hrest
        rw [String.ofList_eq_empty_iff] at hempty
        have hjoin := Text.joinWith_splitOnChar '\n' (before ++ after)
        rw [hr, hrest, hempty] at hjoin
        exact h (List.append_eq_nil_iff.1 hjoin.symm).2
      rw [hr, List.map_cons, hlines' _ hpiece] at ih
      rw [hcons, List.map_cons, hlines, lineAt_cons_char, ih, List.count_cons_of_ne hc]

/-- The line of a place in a text. -/
theorem lineAt_linesOf {source : String} {before after : List Char}
    (hs : source.toList = before ++ after) (h : after ≠ []) :
    (lineAt (Token.bytesOf before) (linesOf source)).1 = before.count '\n' := by
  have hlines :
      linesOf source = dropEmptyLast ((splitOnChar '\n' (before ++ after)).map ofList) := by
    rw [← hs, ← splitOn_newline]
    rfl
  rw [hlines, lineAt_dropEmptyLast h]

end ScriptHost.Wasm.Text

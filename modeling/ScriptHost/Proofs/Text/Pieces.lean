import Mathlib.Data.String.Basic
import ScriptHost.Text.Blank

/-!
# Pieces and places of a text

Cutting a text at a separator and joining pieces with it are inverse to each other: every text
is the join of its pieces (`joinWith_splitOnChar`), and pieces that do not hold the separator
are the pieces of their join (`splitOnChar_joinWith`). A text that is cut in two has the pieces of
both parts, where the last of the first part and the first of the second are one
(`splitOnChar_append_splitOnChar`).

A character stands on a line, and there in a column, both of which are told by the text before it
(`lineBehind`, `columnBehind`). Whatever stands in a line of a text has such a place
(`exists_place`), and so has the newline behind every line but the last (`exists_newline`).
-/

namespace ScriptHost.Text

theorem splitOnChar_ne_nil (sep : Char) (cs : List Char) : splitOnChar sep cs ≠ [] := by
  induction cs with
  | nil => simp [splitOnChar]
  | cons c rest ih =>
    by_cases hc : c = sep
    · simp [splitOnChar, hc]
    · simp only [splitOnChar, if_neg hc]
      split <;> simp

theorem splitOnChar_cons_ne {sep c : Char} (h : c ≠ sep) (cs : List Char) :
    ∃ piece pieces, splitOnChar sep cs = piece :: pieces ∧
      splitOnChar sep (c :: cs) = (c :: piece) :: pieces := by
  cases hp : splitOnChar sep cs with
  | nil => exact absurd hp (splitOnChar_ne_nil sep cs)
  | cons piece pieces => exact ⟨piece, pieces, rfl, by simp [splitOnChar, h, hp]⟩

theorem joinWith_cons {sep : Char} (piece : List Char) {pieces : List (List Char)}
    (h : pieces ≠ []) : joinWith sep (piece :: pieces) = piece ++ sep :: joinWith sep pieces := by
  cases pieces with
  | nil => exact absurd rfl h
  | cons _ _ => rfl

theorem joinWith_cons_cons (sep c : Char) (piece : List Char) (pieces : List (List Char)) :
    joinWith sep ((c :: piece) :: pieces) = c :: joinWith sep (piece :: pieces) := by
  cases pieces <;> rfl

theorem joinWith_splitOnChar (sep : Char) (cs : List Char) :
    joinWith sep (splitOnChar sep cs) = cs := by
  induction cs with
  | nil => rfl
  | cons c rest ih =>
    by_cases hc : c = sep
    · subst hc
      rw [splitOnChar, if_pos rfl, joinWith_cons [] (splitOnChar_ne_nil c rest), ih]
      rfl
    · obtain ⟨piece, pieces, hp, hcp⟩ := splitOnChar_cons_ne hc rest
      rw [hcp, joinWith_cons_cons, ← hp, ih]

/-- No piece holds the separator. -/
theorem not_mem_of_mem_splitOnChar {sep : Char} {cs piece : List Char}
    (h : piece ∈ splitOnChar sep cs) : sep ∉ piece := by
  induction cs generalizing piece with
  | nil =>
    simp only [splitOnChar, List.mem_singleton] at h
    simp [h]
  | cons c rest ih =>
    by_cases hc : c = sep
    · rw [splitOnChar, if_pos hc, List.mem_cons] at h
      rcases h with rfl | h
      · simp
      · exact ih h
    · obtain ⟨first, pieces, hp, hcp⟩ := splitOnChar_cons_ne hc rest
      rw [hcp, List.mem_cons] at h
      rcases h with rfl | h
      · have hfirst : sep ∉ first := ih (by simp [hp])
        simpa [hfirst] using fun e : sep = c => hc e.symm
      · exact ih (by simp [hp, h])

theorem splitOnChar_of_not_mem {sep : Char} {piece : List Char} (h : sep ∉ piece) :
    splitOnChar sep piece = [piece] := by
  induction piece with
  | nil => rfl
  | cons c rest ih =>
    rw [List.mem_cons, not_or] at h
    have hc : c ≠ sep := fun e => h.1 e.symm
    simp [splitOnChar, ih h.2, hc]

theorem splitOnChar_append {sep : Char} {piece : List Char} (h : sep ∉ piece) (rest : List Char) :
    splitOnChar sep (piece ++ sep :: rest) = piece :: splitOnChar sep rest := by
  induction piece with
  | nil => simp [splitOnChar]
  | cons c cs ih =>
    rw [List.mem_cons, not_or] at h
    rw [List.cons_append, splitOnChar, if_neg fun e => h.1 e.symm, ih h.2]

theorem splitOnChar_joinWith {sep : Char} {pieces : List (List Char)} (hne : pieces ≠ [])
    (h : ∀ piece ∈ pieces, sep ∉ piece) : splitOnChar sep (joinWith sep pieces) = pieces := by
  induction pieces with
  | nil => exact absurd rfl hne
  | cons piece rest ih =>
    have hpiece : sep ∉ piece := h piece List.mem_cons_self
    by_cases hr : rest = []
    · subst hr
      exact splitOnChar_of_not_mem hpiece
    · rw [joinWith_cons piece hr, splitOnChar_append hpiece,
        ih hr fun p hp => h p (List.mem_cons_of_mem _ hp)]

/-- A text is cut where a condition first fails. -/
theorem takeWhile_next {p : Char → Bool} {text after : List Char} (ht : ∀ c ∈ text, p c = true)
    (hn : ∀ c ∈ after.head?, p c = false) :
    (text ++ after).takeWhile p = text ∧ (text ++ after).dropWhile p = after := by
  rw [List.takeWhile_append_of_pos ht, List.dropWhile_append_of_pos ht]
  cases after with
  | nil => simp
  | cons c rest =>
    have hc := hn c rfl
    simp [hc]

theorem exists_takeWhile (p : Char → Bool) (cs : List Char) :
    ∃ text after, cs = text ++ after ∧ (∀ c ∈ text, p c = true) ∧
      ∀ c ∈ after.head?, p c = false := by
  refine ⟨cs.takeWhile p, cs.dropWhile p, List.takeWhile_append_dropWhile.symm, ?_, ?_⟩
  · exact fun c hc => List.all_eq_true.1 List.all_takeWhile c hc
  · have hhead := List.head?_dropWhile_not p cs
    intro c hc
    rw [hc] at hhead
    simpa using hhead

/-! ## Pieces of texts behind each other -/

theorem length_splitOnChar (sep : Char) (cs : List Char) :
    (splitOnChar sep cs).length = cs.count sep + 1 := by
  induction cs with
  | nil => rfl
  | cons c rest ih =>
    by_cases hc : c = sep
    · rw [splitOnChar, if_pos hc, List.length_cons, ih, hc, List.count_cons_self]
    · obtain ⟨piece, pieces, hp, hcp⟩ := splitOnChar_cons_ne hc rest
      rw [hcp, List.count_cons_of_ne hc, ← ih, hp]
      rfl

/-- Where two texts meet, the last piece of the first and the first of the second are one. -/
theorem joinWith_append_joinWith (sep : Char) (before : List (List Char)) (last first : List Char)
    (behind : List (List Char)) :
    joinWith sep (before ++ [last]) ++ joinWith sep (first :: behind) =
      joinWith sep (before ++ (last ++ first) :: behind) := by
  induction before with
  | nil =>
    cases behind with
    | nil => rfl
    | cons piece rest =>
      show last ++ (first ++ sep :: joinWith sep (piece :: rest)) =
        last ++ first ++ sep :: joinWith sep (piece :: rest)
      rw [List.append_assoc]
  | cons piece before ih =>
    rw [List.cons_append, List.cons_append, joinWith_cons piece (by simp),
      joinWith_cons piece (by simp), List.append_assoc, List.cons_append, ih]

theorem splitOnChar_append_splitOnChar {sep : Char} {p q : List Char} {before : List (List Char)}
    {last first : List Char} {behind : List (List Char)}
    (hp : splitOnChar sep p = before ++ [last]) (hq : splitOnChar sep q = first :: behind) :
    splitOnChar sep (p ++ q) = before ++ (last ++ first) :: behind := by
  have hjoin : p ++ q = joinWith sep (before ++ (last ++ first) :: behind) := by
    rw [← joinWith_append_joinWith, ← hp, ← hq, joinWith_splitOnChar, joinWith_splitOnChar]
  rw [hjoin, splitOnChar_joinWith (by simp)]
  have hinp {piece : List Char} (h : piece ∈ before ++ [last]) : sep ∉ piece :=
    not_mem_of_mem_splitOnChar (hp ▸ h)
  have hinq {piece : List Char} (h : piece ∈ first :: behind) : sep ∉ piece :=
    not_mem_of_mem_splitOnChar (hq ▸ h)
  intro piece hpiece
  rcases List.mem_append.1 hpiece with h | h
  · exact hinp (List.mem_append_left _ h)
  · rcases List.mem_cons.1 h with rfl | h
    · rw [List.mem_append, not_or]
      exact ⟨hinp (by simp), hinq (by simp)⟩
    · exact hinq (List.mem_cons_of_mem _ h)

/-- Every text has a last piece. -/
theorem exists_splitOnChar_eq_concat (sep : Char) (cs : List Char) :
    ∃ before last, splitOnChar sep cs = before ++ [last] ∧ before.length = cs.count sep := by
  have hne := splitOnChar_ne_nil sep cs
  have hlast := List.dropLast_concat_getLast hne
  refine ⟨_, _, hlast.symm, ?_⟩
  have := length_splitOnChar sep cs
  rw [List.length_dropLast]
  omega

/-- A piece of the second of two texts is one of both, behind the last of the first text if it is
the first of the second. -/
theorem getElem?_splitOnChar_behind {sep : Char} {p q piece : List Char}
    {before : List (List Char)} {last : List Char} (hp : splitOnChar sep p = before ++ [last])
    {n : Nat} (hn : (splitOnChar sep q)[n]? = some piece) :
    (splitOnChar sep (p ++ q))[before.length + n]? =
      some ((if n = 0 then last else []) ++ piece) := by
  cases hq : splitOnChar sep q with
  | nil => exact absurd hq (splitOnChar_ne_nil sep q)
  | cons first behind =>
    rw [hq] at hn
    rw [splitOnChar_append_splitOnChar hp hq, List.getElem?_append_right (Nat.le_add_right ..),
      Nat.add_sub_cancel_left]
    cases n with
    | zero =>
      cases hn
      rfl
    | succ n => exact hn

/-- A piece of the first of two texts is one of both, before the first of the second text if it is
the last of the first. -/
theorem getElem?_splitOnChar_before {sep : Char} {p q piece : List Char} {first : List Char}
    {behind : List (List Char)} (hq : splitOnChar sep q = first :: behind) {n : Nat}
    (hn : (splitOnChar sep p)[n]? = some piece) :
    (splitOnChar sep (p ++ q))[n]? = some (piece ++ if n = p.count sep then first else []) := by
  obtain ⟨before, last, hp, hlength⟩ := exists_splitOnChar_eq_concat sep p
  rw [hp] at hn
  rw [splitOnChar_append_splitOnChar hp hq, ← hlength]
  rcases Nat.lt_trichotomy n before.length with hlt | rfl | hgt
  · rw [List.getElem?_append_left hlt] at hn ⊢
    rw [hn, if_neg (Nat.ne_of_lt hlt), List.append_nil]
  · rw [List.getElem?_append_right (Nat.le_refl _), Nat.sub_self] at hn ⊢
    cases hn
    rw [if_pos rfl]
    rfl
  · rw [List.getElem?_eq_none (by simp; omega)] at hn
    cases hn

/-! ## Splitting a string -/

section

open String (ofList utf8Len)

theorem splitOnAux_ofList (sep : Char) (l m r : List Char) (pieces : List String)
    {first : List Char} {rest : List (List Char)} (h : splitOnChar sep r = first :: rest) :
    String.splitOnAux (ofList (l ++ m ++ r)) (ofList [sep]) ⟨utf8Len l⟩ ⟨utf8Len l + utf8Len m⟩ 0
      pieces = pieces.reverse ++ ((m ++ first) :: rest).map ofList := by
  induction r generalizing l m pieces first rest with
  | nil =>
    obtain ⟨rfl, rfl⟩ := List.cons.inj h
    have hend := (String.atEnd_of_valid (l ++ m) []).2 rfl
    have hextract := String.extract_of_valid l m []
    rw [String.utf8Len_append] at hend
    unfold String.splitOnAux
    rw [if_pos hend, hextract, List.append_nil]
    exact List.reverse_cons
  | cons c r ih =>
    have hend := mt (String.atEnd_of_valid (l ++ m) (c :: r)).1 (List.cons_ne_nil _ _)
    have hget := String.get_of_valid (l ++ m) (c :: r)
    have hnext := String.next_of_valid (l ++ m) c r
    have hextract := String.extract_of_valid l m (c :: r)
    have hsep : String.Pos.Raw.get (ofList [sep]) 0 = sep := String.get_of_valid [] [sep]
    have hsepNext : String.Pos.Raw.next (ofList [sep]) 0 = ⟨sep.utf8Size⟩ := by
      simpa using String.next_of_valid [] sep []
    have hsepEnd : String.Pos.Raw.atEnd (ofList [sep]) ⟨sep.utf8Size⟩ = true := by
      simpa using (String.atEnd_of_valid [sep] []).2 rfl
    rw [String.utf8Len_append] at hend hget hnext
    unfold String.splitOnAux
    rw [if_neg hend, hget, hsep, List.headD_cons]
    by_cases hc : c = sep
    · subst hc
      have hback : (⟨utf8Len l + utf8Len m + c.utf8Size⟩ : String.Pos.Raw).unoffsetBy
          ⟨c.utf8Size⟩ = ⟨utf8Len l + utf8Len m⟩ := by
        rw [String.Pos.Raw.unoffsetBy]
        simp
      rw [splitOnChar, if_pos rfl] at h
      obtain ⟨rfl, rfl⟩ := List.cons.inj h
      obtain ⟨first, rest, hr⟩ := List.exists_cons_of_ne_nil (splitOnChar_ne_nil c r)
      have hih := ih (l ++ m ++ [c]) [] (ofList m :: pieces) hr
      simp only [beq_self_eq_true, if_true, hnext, hsepNext, hsepEnd, hback, hextract]
      simpa [Nat.add_assoc, hr] using hih
    · have hback : (⟨utf8Len l + utf8Len m⟩ : String.Pos.Raw).unoffsetBy 0 =
          ⟨utf8Len l + utf8Len m⟩ := rfl
      obtain ⟨piece, rest, hr, hcons⟩ := splitOnChar_cons_ne hc r
      have hih := ih l (m ++ [c]) pieces hr
      obtain ⟨rfl, rfl⟩ := List.cons.inj (hcons.symm.trans h)
      simp only [beq_iff_eq, hc, if_false, hback, hnext]
      simpa [Nat.add_assoc] using hih

/-- A string is split at a separator of one character as its characters are. -/
theorem splitOn_ofList (sep : Char) (s : String) :
    s.splitOn (ofList [sep]) = (splitOnChar sep s.toList).map ofList := by
  obtain ⟨first, rest, hs⟩ := List.exists_cons_of_ne_nil (splitOnChar_ne_nil sep s.toList)
  have hsplit := splitOnAux_ofList sep [] [] s.toList [] hs
  rw [hs]
  simpa [String.splitOn] using hsplit

end

/-! ## Places of characters -/

/-- The line on which a text goes on behind its beginning, counted from zero. -/
def lineBehind (before : List Char) : Nat := before.count '\n'

/-- The column in which it goes on there: so much stands on that line already. -/
def columnBehind (before : List Char) : Nat :=
  ((splitOnChar '\n' before).getLastD []).length

variable {cs p start : List Char} {before after : List (List Char)}

theorem lineBehind_append (p q : List Char) : lineBehind (p ++ q) = lineBehind p + lineBehind q :=
  List.count_append

theorem lineBehind_of_pieces (h : splitOnChar '\n' p = before ++ [start]) :
    lineBehind p = before.length := by
  have hlength := length_splitOnChar '\n' p
  rw [h, List.length_append, List.length_singleton] at hlength
  exact (Nat.succ.inj hlength).symm

theorem columnBehind_of_pieces (h : splitOnChar '\n' p = before ++ [start]) :
    columnBehind p = start.length := by
  rw [columnBehind, h, List.getLastD_concat]

/-- A text can be cut in the middle of a line. -/
theorem exists_cut_in_line {rest : List Char}
    (h : splitOnChar '\n' cs = before ++ (start ++ rest) :: after) :
    ∃ p, cs = p ++ joinWith '\n' (rest :: after) ∧ splitOnChar '\n' p = before ++ [start] := by
  refine ⟨joinWith '\n' (before ++ [start]), ?_, splitOnChar_joinWith (by simp) ?_⟩
  · rw [joinWith_append_joinWith, ← h, joinWith_splitOnChar]
  · have hline {line : List Char} (hl : line ∈ before ++ (start ++ rest) :: after) : '\n' ∉ line :=
      not_mem_of_mem_splitOnChar (h ▸ hl)
    intro line hl
    rcases List.mem_append.1 hl with hl | hl
    · exact hline (List.mem_append_left _ hl)
    · rw [List.mem_singleton.1 hl]
      intro hmem
      have hwhole : '\n' ∉ start ++ rest := hline (by simp)
      exact hwhole (List.mem_append_left _ hmem)

/-- What stands in a line of a text has its place there. -/
theorem exists_place {n : Nat} {c : Char} {rest : List Char}
    (h : (splitOnChar '\n' cs)[n]? = some (start ++ c :: rest)) :
    ∃ p q, cs = p ++ c :: q ∧ lineBehind p = n ∧ columnBehind p = start.length := by
  obtain ⟨hn, hline⟩ := List.getElem?_eq_some_iff.1 h
  have hsplit : splitOnChar '\n' cs = (splitOnChar '\n' cs).take n ++
      (start ++ c :: rest) :: (splitOnChar '\n' cs).drop (n + 1) := by
    rw [← hline, ← List.drop_eq_getElem_cons hn, List.take_append_drop]
  obtain ⟨p, hcs, hp⟩ := exists_cut_in_line hsplit
  refine ⟨p, _, by rw [hcs, joinWith_cons_cons], ?_, columnBehind_of_pieces hp⟩
  rw [lineBehind_of_pieces hp, List.length_take]
  omega

/-- Behind every line but the last there is a newline. -/
theorem exists_newline {n : Nat} (h : n + 1 < (splitOnChar '\n' cs).length) :
    ∃ p q, cs = p ++ '\n' :: q ∧ lineBehind p = n := by
  have hsplit : splitOnChar '\n' cs = (splitOnChar '\n' cs).take n ++
      ((splitOnChar '\n' cs)[n] ++ []) :: (splitOnChar '\n' cs).drop (n + 1) := by
    rw [List.append_nil, ← List.drop_eq_getElem_cons, List.take_append_drop]
  obtain ⟨p, hcs, hp⟩ := exists_cut_in_line hsplit
  have hbehind : (splitOnChar '\n' cs).drop (n + 1) ≠ [] := by
    rw [Ne, List.drop_eq_nil_iff]
    omega
  refine ⟨p, _, by rw [hcs, joinWith_cons [] hbehind]; rfl, ?_⟩
  rw [lineBehind_of_pieces hp, List.length_take]
  omega

end ScriptHost.Text

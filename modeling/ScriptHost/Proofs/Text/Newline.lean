import ScriptHost.Text.Newline

/-!
# Normalized line ends

The second replacement goes over what the first has left, and could take a line feed that the first
has made for the rest of a pair. It does not: both together are one pass from left to right, in which
a carriage return looks at the character behind it and nothing else is looked at
(`normalizeChars_eq_scan`). What holds of normalized texts is read off the pass (`normalize_scans`).
In particular a text may be normalized in parts, as long as no pair is cut (`CutsPair`): each half of
one is a line end of its own.
-/

namespace ScriptHost.Text.Newline

variable {cs before after : List Char}

/-! ## One pass -/

theorem scan_cons {c : Char} (h : c ≠ '\r') (cs : List Char) : scan (c :: cs) = c :: scan cs := by
  rw [scan]
  · rintro rest hc
    exact absurd hc h
  · exact h

/-- A carriage return that does not begin a pair. -/
theorem scan_return (h : cs.head? ≠ some '\n') : scan ('\r' :: cs) = '\n' :: scan cs := by
  rw [scan]
  rintro rest rfl
  exact h rfl

theorem joinPairs_cons {c : Char} (h : c = '\r' → cs.head? ≠ some '\n') :
    joinPairs (c :: cs) = c :: joinPairs cs := by
  rw [joinPairs]
  rintro rest hc rfl
  exact h hc rfl

theorem normalizeChars_eq_scan (cs : List Char) : normalizeChars cs = scan cs := by
  fun_induction scan cs with
  | case1 rest ih => exact congrArg ('\n' :: ·) ih
  | case2 rest hpair ih =>
    have hhead : rest.head? ≠ some '\n' := by
      intro h
      obtain ⟨more, hmore⟩ := List.head?_eq_some_iff.1 h
      exact hpair more hmore
    rw [normalizeChars, joinPairs_cons fun _ => hhead]
    exact congrArg ('\n' :: ·) ih
  | case3 c rest hpair hreturn ih =>
    rw [normalizeChars, joinPairs_cons fun h => absurd h hreturn, replaceReturns, List.map_cons,
      if_neg hreturn]
    exact congrArg (c :: ·) ih
  | case4 => rfl

/-! ## Normalized texts -/

/-- The second replacement leaves no carriage return. -/
theorem not_mem_normalizeChars (cs : List Char) : '\r' ∉ normalizeChars cs := by
  unfold normalizeChars replaceReturns
  intro h
  obtain ⟨c, -, hc⟩ := List.mem_map.1 h
  split at hc
  next => exact absurd hc (by decide)
  next hne => exact hne hc

theorem scan_of_not_mem (h : '\r' ∉ cs) : scan cs = cs := by
  induction cs with
  | nil => rfl
  | cons c rest ih =>
    rw [List.mem_cons, not_or] at h
    rw [scan_cons (Ne.symm h.1), ih h.2]

/-! ## Texts in parts -/

/-- A pair is cut between two texts. -/
def CutsPair (before after : List Char) : Prop :=
  before.getLast? = some '\r' ∧ after.head? = some '\n'

theorem CutsPair.cons (h : CutsPair before after) (c : Char) : CutsPair (c :: before) after := by
  refine ⟨?_, h.2⟩
  rw [List.getLast?_cons, h.1, Option.getD_some]

/-- Where no pair is cut, the parts are passed over one after the other. -/
theorem scan_append (h : ¬ CutsPair before after) :
    scan (before ++ after) = scan before ++ scan after := by
  -- a pair that is cut behind the rest of `before` is cut behind all of it
  fun_induction scan before with
  | case1 rest ih => exact congrArg ('\n' :: ·) (ih fun hc => h ((hc.cons _).cons _))
  | case2 rest hpair ih =>
    -- the character behind the carriage return may be the first of `after`
    have hhead : (rest ++ after).head? ≠ some '\n' := by
      cases rest with
      | nil => exact fun hafter => h ⟨rfl, hafter⟩
      | cons c rest =>
        rintro hc
        rw [List.cons_append, List.head?_cons, Option.some.injEq] at hc
        exact hpair rest (by rw [hc])
    rw [List.cons_append, scan_return hhead, ih fun hc => h (hc.cons _), List.cons_append]
  | case3 c rest hpair hreturn ih =>
    rw [List.cons_append, scan_cons hreturn, ih fun hc => h (hc.cons _), List.cons_append]
  | case4 => rfl

/-- A pair that is cut becomes two line feeds. -/
theorem scan_append_of_cutsPair (h : CutsPair before after) :
    ∃ front back, scan (before ++ after) = front ++ '\n' :: back ∧
      scan before ++ scan after = front ++ '\n' :: '\n' :: back := by
  obtain ⟨front, rfl⟩ := List.getLast?_eq_some_iff.1 h.1
  obtain ⟨back, rfl⟩ := List.head?_eq_some_iff.1 h.2
  have hfront (rest : List Char) : scan (front ++ '\r' :: rest) = scan front ++ scan ('\r' :: rest) :=
    scan_append fun hc => absurd hc.2 (by simp)
  refine ⟨scan front, scan back, ?_, ?_⟩
  · rw [List.append_assoc, List.singleton_append, hfront]
    rfl
  · have hback : scan ('\n' :: back) = '\n' :: scan back := scan_cons (by decide) back
    rw [hfront, hback, List.append_assoc]
    rfl

theorem scan_append_iff :
    scan (before ++ after) = scan before ++ scan after ↔ ¬ CutsPair before after := by
  refine ⟨fun h hc => ?_, scan_append⟩
  obtain ⟨front, back, hwhole, hparts⟩ := scan_append_of_cutsPair hc
  rw [hwhole, hparts, List.append_cancel_left_eq, List.cons.injEq] at h
  exact List.cons_ne_self _ _ h.2.symm

/-! ## Whole texts -/

theorem toList_normalize (text : String) : (normalize text).toList = scan text.toList := by
  rw [normalize, String.toList_ofList, normalizeChars_eq_scan]

theorem not_mem_normalize (text : String) : '\r' ∉ (normalize text).toList := by
  rw [normalize, String.toList_ofList]
  exact not_mem_normalizeChars _

/-- A text without carriage returns is normalized. -/
theorem normalize_of_not_mem {text : String} (h : '\r' ∉ text.toList) : normalize text = text :=
  String.ext (by rw [toList_normalize, scan_of_not_mem h])

/-- **Normalized line ends.** The two replacements over a text are one pass from left to right. It
leaves no carriage return, and nothing to a second one. Two texts after each other are normalized
each for itself if and only if no pair is cut between them. -/
theorem normalize_scans (text : String) :
    (normalize text).toList = scan text.toList ∧
      '\r' ∉ (normalize text).toList ∧
      normalize (normalize text) = normalize text ∧
      ∀ more, normalize (text ++ more) = normalize text ++ normalize more ↔
        ¬ CutsPair text.toList more.toList := by
  refine ⟨toList_normalize text, not_mem_normalize text,
    normalize_of_not_mem (not_mem_normalize text), fun more => ?_⟩
  rw [← scan_append_iff, ← String.toList_inj, String.toList_append, toList_normalize,
    toList_normalize, toList_normalize, String.toList_append]

/-- Only the last of several carriage returns can begin a pair. -/
example : normalize "a\r\r\r\nb" = "a\n\n\nb" := by decide

end ScriptHost.Text.Newline

/-!
# Bytes of a text

A byte of ASCII in a text is a character of its own, so that the text can be cut before and behind
it (`isValid_ascii`), and what stands between two such cuts is a text again (`isValidUTF8_between`).
So a text is cut into three there (`exists_cut`). Its bytes have a newline for each of its newlines
(`count_newline`).
-/

namespace ScriptHost.Text

theorem toList_loop_eq (bytes : ByteArray) (i : Nat) (acc : List UInt8) :
    ByteArray.toList.loop bytes i acc = acc.reverse ++ bytes.data.toList.drop i := by
  fun_induction ByteArray.toList.loop bytes i acc with
  | case1 i acc hi ih =>
    have hlt : i < bytes.data.toList.length := hi
    have hget : bytes.get! i = bytes.data.toList[i] := by
      rw [Array.getElem_toList]
      exact getElem!_pos bytes.data i hi
    rw [ih, List.reverse_cons, List.append_assoc, List.singleton_append,
      List.drop_eq_getElem_cons hlt, hget]
  | case2 i acc hi =>
    have hle : bytes.data.toList.length ≤ i := Nat.le_of_not_lt hi
    rw [List.drop_eq_nil_of_le hle, List.append_nil]

/-- A text's bytes as they are listed are those that it holds. -/
theorem toList_toUTF8 (s : String) : s.toUTF8.toList = s.toByteArray.data.toList := by
  rw [ByteArray.toList, toList_loop_eq]
  rfl

theorem length_toList_toUTF8 (s : String) : s.toUTF8.toList.length = s.utf8ByteSize := by
  rw [toList_toUTF8]
  rfl

theorem toByteArray_toList_toUTF8 (s : String) : s.toUTF8.toList.toByteArray = s.toByteArray := by
  apply ByteArray.ext
  rw [List.data_toByteArray, toList_toUTF8]

theorem extract_toByteArray {s : String} {before middle after : List UInt8}
    (hs : s.toUTF8.toList = before ++ (middle ++ after)) :
    s.toByteArray.extract before.length (before.length + middle.length) = middle.toByteArray := by
  apply ByteArray.ext
  rw [← toByteArray_toList_toUTF8, hs, ByteArray.data_extract, List.data_toByteArray,
    List.data_toByteArray]
  simp

variable {s : String} {before middle after : List UInt8}

theorem isUTF8FirstByte_ascii {c : Char} (hc : c.utf8Size = 1) : c.toUInt8.IsUTF8FirstByte := by
  have h := @UInt8.isUTF8FirstByte_getElem_zero_utf8EncodeChar c
  simp only [String.utf8EncodeChar_eq_singleton hc] at h
  exact h

/-- A text can be cut before and behind each byte of ASCII. -/
theorem isValid_ascii {c : Char} (hc : c.utf8Size = 1)
    (hs : s.toUTF8.toList = before ++ c.toUInt8 :: after) :
    (String.Pos.Raw.mk before.length).IsValid s ∧
      (String.Pos.Raw.mk (before.length + 1)).IsValid s := by
  have hsize : before.length < s.utf8ByteSize := by
    rw [← length_toList_toUTF8, hs]
    simp
  have hbyte : s.getUTF8Byte ⟨before.length⟩ hsize = c.toUInt8 := by
    have hget : s.toUTF8.toList[before.length]? = some c.toUInt8 := by
      rw [hs, List.getElem?_append_right (Nat.le_refl _), Nat.sub_self]
      rfl
    rw [toList_toUTF8, Array.getElem?_toList] at hget
    exact (Array.getElem?_eq_some_iff.1 hget).2
  have hfirst : (String.Pos.Raw.mk before.length).IsValid s := by
    rw [String.Pos.Raw.isValid_iff_isUTF8FirstByte]
    exact .inr ⟨hsize, hbyte ▸ isUTF8FirstByte_ascii hc⟩
  refine ⟨hfirst, String.Pos.Raw.isValid_iff_isValidUTF8_extract_zero.2 ⟨hsize, ?_⟩⟩
  have hbefore := (String.Pos.Raw.isValid_iff_isValidUTF8_extract_zero.1 hfirst).2
  have hb := @extract_toByteArray s [] before (c.toUInt8 :: after) hs
  have hc' := @extract_toByteArray s [] (before ++ [c.toUInt8]) after
    (by rw [hs, List.append_assoc]; rfl)
  rw [List.length_nil, Nat.zero_add] at hb hc'
  rw [List.length_append, List.length_singleton, List.toByteArray_append, ← hb,
    ByteArray.append_toByteArray_singleton] at hc'
  rw [hc']
  exact hbefore.push hc

/-- What stands between two places where a text can be cut is a text. -/
theorem isValidUTF8_between (hs : s.toUTF8.toList = before ++ (middle ++ after))
    (hfirst : (String.Pos.Raw.mk before.length).IsValid s)
    (hlast : (String.Pos.Raw.mk (before.length + middle.length)).IsValid s) :
    middle.toByteArray.IsValidUTF8 := by
  rw [← extract_toByteArray hs]
  exact (String.Pos.Raw.isValidUTF8_extract_iff ⟨before.length⟩ ⟨before.length + middle.length⟩
    (Nat.le_add_right _ _) hlast.le_rawEndPos).2 (.inr ⟨hfirst, hlast⟩)

theorem isValidUTF8_replicate {c : Char} (hc : c.utf8Size = 1) (n : Nat) :
    (List.replicate n c.toUInt8).toByteArray.IsValidUTF8 := by
  induction n with
  | zero => exact ByteArray.isValidUTF8_empty
  | succ n ih =>
    rw [List.replicate_succ', List.toByteArray_append, ByteArray.append_toByteArray_singleton]
    exact ih.push hc

/-! ## Bytes and characters -/

theorem toList_toUTF8_eq_flatMap (s : String) :
    s.toUTF8.toList = s.toList.flatMap String.utf8EncodeChar := by
  rw [toList_toUTF8, ← String.ofList_toList (s := s), String.toByteArray_ofList, List.utf8Encode,
    List.data_toByteArray, String.toList_ofList]

theorem toList_toUTF8_append (s t : String) :
    (s ++ t).toUTF8.toList = s.toUTF8.toList ++ t.toUTF8.toList := by
  rw [toList_toUTF8_eq_flatMap, String.toList_append, List.flatMap_append,
    ← toList_toUTF8_eq_flatMap, ← toList_toUTF8_eq_flatMap]

/-- A byte of ASCII is only in the bytes of its own character. -/
theorem eq_of_mem_utf8EncodeChar {c d : Char} (hd : d.utf8Size = 1)
    (h : d.toUInt8 ∈ String.utf8EncodeChar c) : c = d := by
  have hlt : d.val.toNat ≤ 127 := UInt32.le_iff_toNat_le.1 (Char.utf8Size_eq_one_iff.1 hd)
  have byte {n : Nat} (hn : n < 256) (he : d.toUInt8 = UInt8.ofNat n) : n = d.val.toNat := by
    have := congrArg UInt8.toNat he
    rw [UInt8.toNat_ofNat_of_lt' hn, Char.toUInt8, UInt32.toNat_toUInt8] at this
    omega
  simp only [String.utf8EncodeChar] at h
  -- one byte for ASCII; all bytes of longer characters have the highest bit
  split at h
  · exact Char.ext (UInt32.toNat_inj.1 (byte (by omega) (List.mem_singleton.1 h)))
  all_goals exfalso
  split at h
  · simp only [List.mem_cons, List.not_mem_nil, or_false] at h
    rcases h with h | h <;> have := byte (by omega) h <;> omega
  split at h
  · simp only [List.mem_cons, List.not_mem_nil, or_false] at h
    rcases h with h | h | h <;> have := byte (by omega) h <;> omega
  · simp only [List.mem_cons, List.not_mem_nil, or_false] at h
    rcases h with h | h | h | h <;> have := byte (by omega) h <;> omega

/-- Only a newline has its byte. -/
theorem count_newline_utf8EncodeChar (c : Char) :
    (String.utf8EncodeChar c).count 0x0a = if c = '\n' then 1 else 0 := by
  by_cases hc : c = '\n'
  · rw [hc]
    rfl
  · rw [if_neg hc, List.count_eq_zero]
    exact fun h => hc (eq_of_mem_utf8EncodeChar (d := '\n') rfl h)

theorem count_newline (s : String) : s.toUTF8.toList.count 0x0a = s.toList.count '\n' := by
  rw [toList_toUTF8_eq_flatMap]
  induction s.toList with
  | nil => rfl
  | cons c rest ih =>
    rw [List.flatMap_cons, List.count_append, ih, count_newline_utf8EncodeChar, List.count_cons,
      Nat.add_comm]
    simp

theorem toList_toUTF8_replicate (n : Nat) :
    (String.ofList (List.replicate n '\n')).toUTF8.toList = List.replicate n 0x0a := by
  rw [toList_toUTF8_eq_flatMap, String.toList_ofList]
  induction n with
  | zero => rfl
  | succ n ih =>
    rw [List.replicate_succ, List.flatMap_cons, ih]
    rfl

/-- The bytes of a text are read as that text. -/
theorem fromUTF8?_toList (s : String) : String.fromUTF8? ⟨s.toUTF8.toList.toArray⟩ = some s := by
  have hs : (⟨s.toUTF8.toList.toArray⟩ : ByteArray) = s.toByteArray := by
    rw [toList_toUTF8, Array.toArray_toList]
  rw [hs, String.fromUTF8?, dif_pos s.isValidUTF8]
  rfl

/-- What is read from bytes is the text that has just these. -/
theorem fromUTF8?_eq_some_iff {bytes : List UInt8} {s : String} :
    String.fromUTF8? ⟨bytes.toArray⟩ = some s ↔ s.toUTF8.toList = bytes := by
  constructor
  · intro h
    rw [String.fromUTF8?] at h
    split at h
    · cases h
      exact toList_toUTF8 _
    · cases h
  · rintro rfl
    exact fromUTF8?_toList s

/-- A text is told by its bytes. -/
theorem eq_of_toList_toUTF8 {s t : String} (h : s.toUTF8.toList = t.toUTF8.toList) : s = t := by
  have hs := fromUTF8?_toList s
  rw [h, fromUTF8?_toList] at hs
  exact (Option.some.inj hs).symm

/-- A text is cut into three at two places where it can be cut. -/
theorem exists_cut {s : String} {before middle after : List UInt8}
    (hs : s.toUTF8.toList = before ++ (middle ++ after))
    (hfirst : (String.Pos.Raw.mk before.length).IsValid s)
    (hlast : (String.Pos.Raw.mk (before.length + middle.length)).IsValid s) :
    ∃ t u w : String, s = t ++ (u ++ w) ∧ t.toUTF8.toList = before ∧
      u.toUTF8.toList = middle ∧ w.toUTF8.toList = after := by
  have text {bytes : List UInt8} (h : bytes.toByteArray.IsValidUTF8) :
      ∃ t : String, t.toUTF8.toList = bytes := by
    refine ⟨.ofByteArray bytes.toByteArray h, ?_⟩
    rw [toList_toUTF8, List.data_toByteArray]
  have hend : (String.Pos.Raw.mk ((before ++ middle).length + after.length)).IsValid s := by
    have hsize : (before ++ middle).length + after.length = s.utf8ByteSize := by
      rw [← length_toList_toUTF8, hs]
      simp [Nat.add_assoc]
    rw [hsize]
    exact String.Pos.Raw.isValid_rawEndPos
  have hs' : s.toUTF8.toList = [] ++ (before ++ (middle ++ after)) := hs
  have hs'' : s.toUTF8.toList = (before ++ middle) ++ (after ++ []) := by
    rw [hs, List.append_assoc, List.append_nil]
  obtain ⟨t, ht⟩ := text (isValidUTF8_between hs' String.Pos.Raw.isValid_zero
    (by simpa using hfirst))
  obtain ⟨u, hu⟩ := text (isValidUTF8_between hs hfirst hlast)
  obtain ⟨w, hw⟩ := text (isValidUTF8_between hs'' (by simpa using hlast) hend)
  refine ⟨t, u, w, ?_, ht, hu, hw⟩
  apply eq_of_toList_toUTF8
  rw [toList_toUTF8_append, toList_toUTF8_append, ht, hu, hw, hs]

end ScriptHost.Text

import ScriptHost.Proofs.ModuleForm.Lines

/-!
# What stands around the form

The search ends at the closing parenthesis of the first module form, and all that it looks ahead at
on its way stands before that parenthesis or is the parenthesis. So whatever follows on the form,
the same form is found (`FirstForm.before_other`), and it is found again where its own text begins
(`FirstForm.alone`), also behind empty lines (`FirstForm.behind_lines`). What is compiled of a test
script thereby depends on no text behind the form, and has nothing left to be cut off (`local_form`).
-/

namespace ScriptHost.ModuleForm

open Text (lineBehind)

/-! ## Looking ahead -/

/-- Whether a token can be read is told by the byte behind it. -/
theorem Token.ReadBefore.of_head? {t : Token} {rest other : List UInt8} (h : t.ReadBefore rest)
    (hr : rest.head? = other.head?) : t.ReadBefore other := by
  cases h with
  | line hb hn => exact .line hb (hr ▸ hn)
  | block hb => exact .block hb
  | quoted hb => exact .quoted hb
  | opening ho => exact .opening (hr ▸ ho)
  | closing => exact .closing
  | other hq ho hc hl => exact .other hq ho hc (hr ▸ hl)

/-- Tokens up to a closing parenthesis are read whatever stands behind it. -/
theorem Lexed.before_other {source after : List UInt8} {ts : List Token}
    (h : Lexed source (ts ++ [.closing]) after) (other : List UInt8) :
    Lexed (textOf (ts ++ [.closing]) ++ other) (ts ++ [.closing]) other := by
  induction ts generalizing source with
  | nil => exact .cons .closing (.nil other)
  | cons t ts ih =>
    rw [List.cons_append] at h ⊢
    obtain ⟨ht, hts⟩ := h.of_cons
    have hne : textOf (ts ++ [.closing]) ≠ [] := by
      rw [textOf_append]
      exact List.append_ne_nil_of_right_ne_nil _ (Token.text_ne_nil .closing)
    rw [textOf_cons, List.append_assoc]
    refine .cons (ht.of_head? ?_) (ih hts)
    rw [List.head?_append_of_ne_nil _ hne, List.head?_append_of_ne_nil _ hne]

theorem moduleWord_iff (bytes : List UInt8) :
    ModuleWord bytes ↔ bytes.take 6 = [0x6d, 0x6f, 0x64, 0x75, 0x6c, 0x65] ∧
      ∀ b ∈ bytes[6]?, b ∈ [0x20, 0x09, 0x0a, 0x0c, 0x0d, 0x29] := by
  constructor
  · rintro ⟨after, rfl, h⟩
    refine ⟨rfl, ?_⟩
    rwa [List.head?_eq_getElem?] at h
  · rintro ⟨hword, h⟩
    refine ⟨bytes.drop 6, ?_, ?_⟩
    · rw [← hword, List.take_append_drop]
    · rwa [List.head?_drop]

/-- The word is told by seven bytes. -/
theorem moduleWord_append {bytes : List UInt8} (h : 7 ≤ bytes.length) (after other : List UInt8) :
    ModuleWord (bytes ++ after) ↔ ModuleWord (bytes ++ other) := by
  rw [moduleWord_iff, moduleWord_iff, List.take_append_of_le_length (by omega),
    List.take_append_of_le_length (by omega), List.getElem?_append_left (by omega),
    List.getElem?_append_left (by omega)]

namespace FirstForm

variable {depth : Nat} {source after : List UInt8} {before inner : List Token}

/-- The whole word stands between the parentheses of the form. -/
theorem word_length_le (h : FirstForm depth source before inner after) :
    6 ≤ (textOf inner).length := by
  by_contra hshort
  have hclose : (textOf (inner ++ [.closing]) ++ after)[(textOf inner).length]? = some 0x29 := by
    rw [textOf_append, List.append_assoc, List.getElem?_append_right (Nat.le_refl _), Nat.sub_self]
    rfl
  obtain ⟨rest, hword, -⟩ := h.word
  have hlt : (textOf inner).length < [0x6d, 0x6f, 0x64, 0x75, 0x6c, (0x65 : UInt8)].length :=
    Nat.lt_of_not_le hshort
  rw [hword, List.getElem?_append_left hlt] at hclose
  exact absurd (List.mem_of_getElem? hclose) (by decide)

theorem length_form_le (h : FirstForm depth source before inner after) (earlier : List Token) :
    7 ≤ (textOf (earlier ++ inner ++ [.closing])).length := by
  have hinner := h.word_length_le
  rw [textOf_append, textOf_append, List.length_append, List.length_append]
  have hclose : (textOf [.closing]).length = 1 := rfl
  omega

/-! ## Behind and before the form -/

/-- Whatever follows on the form, it is the first one. -/
theorem before_other (h : FirstForm depth source before inner after) (other : List UInt8) :
    FirstForm depth (textOf (before ++ .opening :: (inner ++ [.closing])) ++ other) before inner
      other where
  lexed := by
    have hl := h.lexed
    have hend : before ++ Token.opening :: (inner ++ [.closing]) =
        (before ++ Token.opening :: inner) ++ [.closing] := by simp
    rw [hend] at hl ⊢
    exact hl.before_other other
  level := h.level
  word := (moduleWord_append (h.length_form_le []) after other).1 h.word
  matching := h.matching
  first earlier later hb hd hw := by
    refine h.first earlier later hb hd ?_
    have hend : later ++ Token.opening :: (inner ++ [.closing]) =
        (later ++ [.opening]) ++ inner ++ [.closing] := by simp
    rw [hend] at hw ⊢
    exact (moduleWord_append (h.length_form_le _) other after).1 hw

/-- The form is the first one of its own text. -/
theorem alone (h : FirstForm depth source before inner after) (other : List UInt8) :
    FirstForm 0 (textOf (.opening :: (inner ++ [.closing])) ++ other) [] inner other where
  lexed := (h.before_other other).lexed.of_append.2
  level := rfl
  word := (h.before_other other).word
  matching := h.matching
  first earlier later hb := absurd hb (by simp)

/-- Empty lines before a form make no difference to it. -/
theorem behind_lines (h : FirstForm depth source before inner after) (n : Nat) :
    FirstForm depth (List.replicate n 0x0a ++ source) (List.replicate n (.other 0x0a) ++ before)
      inner after := by
  induction n with
  | zero => exact h
  | succ n ih =>
    have hread : (Token.other 0x0a).ReadBefore (List.replicate n 0x0a ++ source) :=
      .other (by decide) (by decide) (by decide) fun hsemicolon => absurd hsemicolon.1 (by decide)
    rw [List.replicate_succ, List.replicate_succ, List.cons_append, List.cons_append]
    exact ih.cons hread rfl fun hopen => absurd hopen.1 (by simp)

end FirstForm

/-! ## The form of a text -/

theorem length_textOf_form (inner : List Token) :
    (textOf (.opening :: (inner ++ [.closing]))).length = (textOf inner).length + 2 := by
  rw [textOf_cons, textOf_append, List.length_append, List.length_append, Nat.add_comm]
  rfl

namespace FormAt

variable {source before form after : String} {s e : Nat}

theorem size_form (h : FormAt source s e before form after) : s + form.utf8ByteSize = e := by
  rw [← h.first, ← h.last, String.utf8ByteSize_append]

/-- A text is cut into its form and what stands around it in one way. -/
theorem unique (h : FormAt source s e before form after) {before' form' after' : String}
    (h' : FormAt source s e before' form' after') : before = before' ∧ form = form' := by
  have hbytes := congrArg (fun text : String => text.toUTF8.toList)
    (h.source_eq.symm.trans h'.source_eq)
  simp only [Text.toList_toUTF8_append] at hbytes
  have hfirst : before.toUTF8.toList.length = before'.toUTF8.toList.length := by
    rw [Text.length_toList_toUTF8, Text.length_toList_toUTF8, h.first, h'.first]
  obtain ⟨hb, hrest⟩ := List.append_inj hbytes hfirst
  have hlast : form.toUTF8.toList.length = form'.toUTF8.toList.length := by
    rw [Text.length_toList_toUTF8, Text.length_toList_toUTF8]
    exact Nat.add_left_cancel (h.size_form.trans h'.size_form.symm)
  exact ⟨Text.eq_of_toList_toUTF8 hb, Text.eq_of_toList_toUTF8 (List.append_inj hrest hlast).1⟩

theorem extract?_eq (h : FormAt source s e before form after)
    (hfind : find? source.toUTF8.toList = some (s, e)) :
    extract? source =
      some (String.ofList (List.replicate (lineBehind before.toList) '\n') ++ form) := by
  obtain ⟨before', form', after', hat, htext⟩ := exists_formAt hfind
  obtain ⟨rfl, rfl⟩ := h.unique hat
  exact htext

/-- The tokens of a form stand in the text of it. -/
theorem tokens (h : FormAt source s e before form after)
    (hfind : find? source.toUTF8.toList = some (s, e)) :
    ∃ tokens inner, before.toUTF8.toList = textOf tokens ∧
      form.toUTF8.toList = textOf (.opening :: (inner ++ [.closing])) ∧
      FirstForm 0 source.toUTF8.toList tokens inner after.toUTF8.toList := by
  obtain ⟨tokens, inner, rest, hform, hs, he⟩ := (find?_eq_some_iff _ s e).1 hfind
  have hbytes := hform.lexed.source_eq
  rw [h.source_eq, Text.toList_toUTF8_append, Text.toList_toUTF8_append, textOf_append,
    List.append_assoc] at hbytes
  have hfirst : before.toUTF8.toList.length = (textOf tokens).length := by
    rw [Text.length_toList_toUTF8, h.first, hs]
  obtain ⟨hb, hbehind⟩ := List.append_inj hbytes hfirst
  have hlast : form.toUTF8.toList.length =
      (textOf (.opening :: (inner ++ [.closing]))).length := by
    rw [Text.length_toList_toUTF8, length_textOf_form]
    exact Nat.add_left_cancel (h.size_form.trans he)
  obtain ⟨hf, ha⟩ := List.append_inj hbehind hlast
  exact ⟨tokens, inner, hb, hf, ha ▸ hform⟩

end FormAt

section

variable {source before form after : String} {s e : Nat}

/-- Behind empty lines the form is found, whatever follows. -/
theorem find?_behind_lines (h : FormAt source s e before form after)
    (hfind : find? source.toUTF8.toList = some (s, e)) (n : Nat) (t : String) :
    find? (String.ofList (List.replicate n '\n') ++ form ++ t).toUTF8.toList =
      some (n, n + (e - s)) := by
  obtain ⟨tokens, inner, -, hf, hform⟩ := h.tokens hfind
  have hlines : textOf (List.replicate n (.other 0x0a) ++ []) = List.replicate n 0x0a := by
    rw [List.append_nil]
    induction n with
    | zero => rfl
    | succ n ih => exact congrArg (0x0a :: ·) ih
  have hsize : e - s = (textOf inner).length + 2 := by
    rw [← h.size_form, Nat.add_sub_cancel_left, ← Text.length_toList_toUTF8, hf,
      length_textOf_form]
  have hfound := find?_of_firstForm ((hform.alone t.toUTF8.toList).behind_lines n)
  rw [hlines, List.length_replicate, ← hf] at hfound
  rw [Text.toList_toUTF8_append, Text.toList_toUTF8_append, Text.toList_toUTF8_replicate,
    List.append_assoc, hfound, hsize, Nat.add_assoc]

/-- Whatever follows on the form, it is found. -/
theorem find?_before_other (h : FormAt source s e before form after)
    (hfind : find? source.toUTF8.toList = some (s, e)) (t : String) :
    find? (before ++ form ++ t).toUTF8.toList = some (s, e) := by
  obtain ⟨tokens, inner, hb, hf, hform⟩ := h.tokens hfind
  have hsame := find?_of_firstForm hform
  have hfound := find?_of_firstForm (hform.before_other t.toUTF8.toList)
  rw [textOf_append, ← hsame, hfind] at hfound
  rw [Text.toList_toUTF8_append, Text.toList_toUTF8_append, hb, hf]
  exact hfound

end

/-- **The form is local.** What a test script is compiled from stands between the parentheses of its
first module form. Whatever text follows on the form, the same form is found and the same is
compiled. In its own text the form is all there is: it is found from the start to the end, and
extracted as it is, with the empty lines before it or without them. -/
theorem local_form {source : String} {s e : Nat}
    (h : find? source.toUTF8.toList = some (s, e)) :
    ∃ before form after text : String, FormAt source s e before form after ∧
      (∀ t : String, find? (before ++ form ++ t).toUTF8.toList = some (s, e)) ∧
      find? form.toUTF8.toList = some (0, e - s) ∧
      extract? form = some form ∧
      extract? source = some text ∧ extract? text = some text ∧
      ∀ t : String, extract? (before ++ form ++ t) = some text ∧
        ∀ path, Language.wast.translate path (before ++ form ++ t) = translateText path text := by
  obtain ⟨before, form, after, hat, htext⟩ := exists_formAt h
  have hother (t : String) : FormAt (before ++ form ++ t) s e before form t :=
    ⟨String.append_assoc, hat.first, hat.last, hat.inner⟩
  -- behind any number of empty lines the form is what is extracted, with these lines
  have hlines (n : Nat) : find? (String.ofList (List.replicate n '\n') ++ form).toUTF8.toList =
        some (n, n + (e - s)) ∧
      extract? (String.ofList (List.replicate n '\n') ++ form) =
        some (String.ofList (List.replicate n '\n') ++ form) := by
    have hfind := find?_behind_lines hat h n ""
    rw [String.append_empty] at hfind
    have hbehind : FormAt (String.ofList (List.replicate n '\n') ++ form) n (n + (e - s))
        (String.ofList (List.replicate n '\n')) form "" := by
      have hn : (String.ofList (List.replicate n '\n')).utf8ByteSize = n := by
        rw [← Text.length_toList_toUTF8, Text.toList_toUTF8_replicate, List.length_replicate]
      refine ⟨by rw [String.append_empty], hn, ?_, hat.inner⟩
      rw [String.utf8ByteSize_append, hn, ← hat.size_form, Nat.add_sub_cancel_left]
    refine ⟨hfind, ?_⟩
    rw [hbehind.extract?_eq hfind, String.toList_ofList, lineBehind, List.count_replicate_self]
  refine ⟨before, form, after, _, hat, find?_before_other hat h, ?_, ?_, htext, (hlines _).2, ?_⟩
  · have := (hlines 0).1
    rwa [List.replicate_zero, String.ofList_nil, String.empty_append, Nat.zero_add] at this
  · have := (hlines 0).2
    rwa [List.replicate_zero, String.ofList_nil, String.empty_append] at this
  · intro t
    have hextract := (hother t).extract?_eq (find?_before_other hat h t)
    exact ⟨hextract, fun path => by simp only [Language.translate, hextract]⟩

/-- A form with a character of two bytes, and another form behind it that is not closed. -/
theorem local_form_before_open_form :
    find? "(a)\n(module ;; é\n) (module".toUTF8.toList = some (4, 19) ∧
    ∃ before form after text : String,
      FormAt "(a)\n(module ;; é\n) (module" 4 19 before form after ∧
      (∀ t : String, find? (before ++ form ++ t).toUTF8.toList = some (4, 19)) ∧
      find? form.toUTF8.toList = some (0, 15) ∧
      extract? form = some form ∧
      extract? "(a)\n(module ;; é\n) (module" = some text ∧ extract? text = some text ∧
      ∀ t : String, extract? (before ++ form ++ t) = some text ∧
        ∀ path, Language.wast.translate path (before ++ form ++ t) = translateText path text := by
  have hfind : find? "(a)\n(module ;; é\n) (module".toUTF8.toList = some (4, 19) := by
    rw [Text.toList_toUTF8_eq_flatMap]
    decide +kernel
  exact ⟨hfind, local_form hfind⟩

end ScriptHost.ModuleForm

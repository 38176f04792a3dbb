import Mathlib.Data.List.Forall2
import ScriptHost.Compile
import ScriptHost.Proofs.ModuleForm.Search
import ScriptHost.Proofs.Preprocess.Expansion
import ScriptHost.Proofs.Text.Pieces

/-!
# Lines of a test script

What is compiled of a test script is one form of it, cut out of its expansion and set behind as many
empty lines as there were lines before it. All that is left of the script thereby stays on its line
(`lines_kept`), so that a line that is named for the compiled text is a line of the script.

Expansion keeps each line or empties it (`expand_lines`), a line of the form is a piece of the line
of the expansion in its place (`exists_line_of_form`), and the empty lines before the form make up
for those that are cut off (`splitOnChar_behindEmpty`).
-/

namespace ScriptHost.ModuleForm

open Preprocess (expand linesOf)
open Text (splitOnChar lineBehind columnBehind)

/-! ## Expansion -/

/-- What stands in a line of the expansion stands in that line of the text. -/
def LineKept (line kept : List Char) : Prop := kept = line ∨ kept = []

theorem lineKept_shown (place : List Char × List Bool) :
    LineKept place.1 (Preprocess.shown place) := by
  unfold Preprocess.shown
  split
  · exact .inl rfl
  · exact .inr rfl

theorem expand_lines {defines : List String} {source expanded : String}
    (h : expand defines source = .ok expanded) :
    List.Forall₂ LineKept (linesOf source) (linesOf expanded) := by
  obtain ⟨⟨b, hb⟩, hn⟩ := Preprocess.valid_of_expand h
  obtain ⟨text, htext, hlines⟩ := Preprocess.expand_of_valid defines hb hn
  obtain rfl : expanded = text := Except.ok.inj (h.symm.trans htext)
  rw [hlines, ← hb, ← b.map_fst_placed defines [], List.forall₂_map_left_iff,
    List.forall₂_map_right_iff]
  exact List.forall₂_same.2 fun place _ => lineKept_shown place

section Kept

variable {lines kept : List (List Char)} (h : List.Forall₂ LineKept lines kept)

include h

theorem exists_line_of_kept {n : Nat} {text : List Char} (ht : kept[n]? = some text) :
    ∃ line, lines[n]? = some line ∧ LineKept line text := by
  obtain ⟨hn, rfl⟩ := List.getElem?_eq_some_iff.1 ht
  have hn' : n < lines.length := h.length_eq ▸ hn
  exact ⟨lines[n], List.getElem?_eq_getElem hn', h.get hn' hn⟩

theorem line_of_kept {n : Nat} {text : List Char} (ht : kept[n]? = some text) (hne : text ≠ []) :
    lines[n]? = some text := by
  obtain ⟨line, hline, rfl | hempty⟩ := exists_line_of_kept h ht
  · exact hline
  · exact absurd hempty hne

end Kept

/-! ## The form -/

/-- A form is an opening parenthesis, a text and a closing one. -/
theorem exists_inner {form : String} {inner : List UInt8}
    (h : form.toUTF8.toList = '('.toUInt8 :: (inner ++ [')'.toUInt8])) :
    ∃ text : String, form = "(" ++ (text ++ ")") := by
  have hclose : form.toUTF8.toList = ('('.toUInt8 :: inner) ++ ')'.toUInt8 :: [] := by
    rw [h, List.cons_append]
  have hopen : form.toUTF8.toList = [] ++ '('.toUInt8 :: (inner ++ [')'.toUInt8]) := h
  have hcut : form.toUTF8.toList = ['('.toUInt8] ++ (inner ++ [')'.toUInt8]) := h
  have hfirst := (Text.isValid_ascii rfl hopen).2
  have hlast := (Text.isValid_ascii rfl hclose).1
  obtain ⟨left, text, right, hform, hl, -, hr⟩ :=
    Text.exists_cut hcut hfirst (by rwa [List.length_cons, Nat.add_comm] at hlast)
  have hleft : "(".toUTF8.toList = ['('.toUInt8] := by
    rw [Text.toList_toUTF8_eq_flatMap]
    rfl
  have hright : ")".toUTF8.toList = [')'.toUInt8] := by
    rw [Text.toList_toUTF8_eq_flatMap]
    rfl
  obtain rfl : left = "(" := Text.eq_of_toList_toUTF8 (hl.trans hleft.symm)
  obtain rfl : right = ")" := Text.eq_of_toList_toUTF8 (hr.trans hright.symm)
  exact ⟨text, hform⟩

/-- The form from place `s` to place `e` of a text, with what stands before and behind it. -/
structure FormAt (source : String) (s e : Nat) (before form after : String) : Prop where
  source_eq : source = before ++ (form ++ after)
  first : before.utf8ByteSize = s
  last : (before ++ form).utf8ByteSize = e
  inner : ∃ inner : String, form = "(" ++ (inner ++ ")")

theorem exists_formAt {source : String} {s e : Nat}
    (h : find? source.toUTF8.toList = some (s, e)) :
    ∃ before form after : String, FormAt source s e before form after ∧
      extract? source =
        some (String.ofList (List.replicate (lineBehind before.toList) '\n') ++ form) := by
  obtain ⟨tokens, inner, rest, hform, rfl, rfl⟩ := (find?_eq_some_iff _ s e).1 h
  obtain ⟨hfirst, hlast⟩ := hform.isValid
  have hbytes : source.toUTF8.toList =
      textOf tokens ++ (('('.toUInt8 :: (textOf inner ++ [')'.toUInt8])) ++ rest) := by
    rw [hform.source_eq]
    simp
  obtain ⟨before, form, after, hsource, hb, hf, -⟩ := Text.exists_cut hbytes hfirst (by
    convert hlast using 2
    simp
    omega)
  refine ⟨before, form, after, ⟨hsource, ?_, ?_, exists_inner hf⟩, ?_⟩
  · rw [← Text.length_toList_toUTF8, hb]
  · rw [← Text.length_toList_toUTF8, Text.toList_toUTF8_append, hb, hf]
    simp
    omega
  · have hpadding : List.replicate ((textOf tokens).count 0x0a) 0x0a ++
        '('.toUInt8 :: (textOf inner ++ [')'.toUInt8]) =
        (String.ofList (List.replicate (lineBehind before.toList) '\n') ++ form).toUTF8.toList := by
      rw [Text.toList_toUTF8_append, Text.toList_toUTF8_replicate, hf, ← hb, Text.count_newline]
      rfl
    have hbefore : source.toUTF8.toList.take (textOf tokens).length = textOf tokens := by
      rw [hbytes, List.take_left]
    simp only [extract?, split?, h, Option.map_some, Option.bind_eq_bind, Option.bind_some,
      hform.slice, hbefore, hpadding, Text.fromUTF8?_toList]

/-! ## Lines of the form -/

variable {source before form after : List Char}

variable (before after) in
/-- A line of a form is a piece of a line of the text that holds the form: all of it, unless it is
the first or the last of the form. -/
theorem exists_line_of_form {n : Nat} {line : List Char}
    (h : (splitOnChar '\n' form)[n]? = some line) :
    ∃ left right, (splitOnChar '\n' (before ++ (form ++ after)))[lineBehind before + n]? =
        some (left ++ (line ++ right)) ∧
      (n ≠ 0 → left = []) ∧ (n ≠ lineBehind form → right = []) := by
  obtain ⟨lines, last, hb, hlength⟩ := Text.exists_splitOnChar_eq_concat '\n' before
  cases ha : splitOnChar '\n' after with
  | nil => exact absurd ha (Text.splitOnChar_ne_nil _ _)
  | cons first behind =>
    have hline := Text.getElem?_splitOnChar_behind hb (Text.getElem?_splitOnChar_before ha h)
    rw [hlength] at hline
    exact ⟨_, _, hline, fun hn => if_neg hn, fun hn => if_neg hn⟩

variable (before after) in
/-- A character of a form that is no newline stands in its line of the text that holds the form. -/
theorem exists_line_of_character {p q : List Char} {c : Char} (hform : form = p ++ c :: q)
    (hc : c ≠ '\n') :
    ∃ start rest, (splitOnChar '\n' (before ++ (form ++ after)))[lineBehind (before ++ p)]? =
        some (start ++ c :: rest) ∧ start.length = columnBehind (before ++ p) := by
  obtain ⟨lines, start, hb, hlength⟩ := Text.exists_splitOnChar_eq_concat '\n' (before ++ p)
  obtain ⟨rest, behind, -, ha⟩ := Text.splitOnChar_cons_ne hc (q ++ after)
  have htext : before ++ (form ++ after) = before ++ p ++ c :: (q ++ after) := by
    rw [hform]
    simp
  refine ⟨start, rest, ?_, (Text.columnBehind_of_pieces hb).symm⟩
  rw [htext, Text.splitOnChar_append_splitOnChar hb ha, Text.lineBehind_of_pieces hb,
    List.getElem?_append_right (Nat.le_refl _), Nat.sub_self]
  rfl

/-- The form behind an empty line for each line before it. -/
def behindEmpty (before form : List Char) : List Char :=
  List.replicate (lineBehind before) '\n' ++ form

theorem splitOnChar_behindEmpty (before form : List Char) :
    splitOnChar '\n' (behindEmpty before form) =
      List.replicate (lineBehind before) [] ++ splitOnChar '\n' form := by
  unfold behindEmpty
  induction lineBehind before with
  | zero => rfl
  | succ n ih =>
    rw [List.replicate_succ, List.cons_append, splitOnChar, if_pos rfl, ih]
    rfl

theorem line_above_form {n : Nat} (h : n < lineBehind before) :
    (splitOnChar '\n' (behindEmpty before form))[n]? = some [] := by
  rw [splitOnChar_behindEmpty, List.getElem?_append_left (by rwa [List.length_replicate]),
    List.getElem?_replicate_of_lt h]

theorem line_of_form (n : Nat) :
    (splitOnChar '\n' (behindEmpty before form))[lineBehind before + n]? =
      (splitOnChar '\n' form)[n]? := by
  rw [splitOnChar_behindEmpty, List.getElem?_append_right (by simp), List.length_replicate,
    Nat.add_sub_cancel_left]

/-! ## The compiled text -/

/-- How a compiled text stands to the script that it is from, if `before` stands before the form
once the script is expanded. Lines are counted from zero. -/
structure KeepsLines (source before form text : List Char) : Prop where
  /-- Each character of the form is in the text on the line that it is on in the script. -/
  character (p q : List Char) (c : Char) (h : form = p ++ c :: q) :
    ∃ u v w, text = u ++ c :: q ∧ source = v ++ c :: w ∧ lineBehind u = lineBehind v ∧
      lineBehind v = lineBehind (before ++ p) ∧
      (c ≠ '\n' → columnBehind v = columnBehind (before ++ p))
  /-- Nothing stands above the form. -/
  above (n : Nat) (h : n < lineBehind before) : (splitOnChar '\n' text)[n]? = some []
  /-- Between its first and its last line there are lines of the script and empty ones. -/
  between (n : Nat) (line : List Char) (hfirst : lineBehind before < n)
    (hlast : n < lineBehind (before ++ form)) (h : (splitOnChar '\n' text)[n]? = some line) :
    line = [] ∨ (splitOnChar '\n' source)[n]? = some line
  /-- Its first and its last line are pieces of lines of the script. -/
  ends (n : Nat) (h : n = lineBehind before ∨ n = lineBehind (before ++ form)) :
    ∃ line whole, (splitOnChar '\n' text)[n]? = some line ∧
      (splitOnChar '\n' source)[n]? = some whole ∧ line <:+: whole
  /-- The text ends with the last line of the form, which is a line of the script. -/
  length : (splitOnChar '\n' text).length = lineBehind (before ++ form) + 1
  length_le : (splitOnChar '\n' text).length ≤ (splitOnChar '\n' source).length

section Kept

variable (h : List.Forall₂ LineKept (splitOnChar '\n' source)
  (splitOnChar '\n' (before ++ (form ++ after))))

include h

theorem exists_character {p q : List Char} {c : Char} (hform : form = p ++ c :: q) :
    ∃ v w, source = v ++ c :: w ∧ lineBehind v = lineBehind (before ++ p) ∧
      (c ≠ '\n' → columnBehind v = columnBehind (before ++ p)) := by
  by_cases hc : c = '\n'
  · -- the line that a newline of the form ends is not the last of the script
    have hnext : lineBehind (before ++ p) + 1 < (splitOnChar '\n' source).length := by
      rw [h.length_eq, Text.length_splitOnChar, hform, hc]
      simp only [lineBehind, List.count_append, List.count_cons_self]
      omega
    obtain ⟨v, w, hsource, hline⟩ := Text.exists_newline hnext
    exact ⟨v, w, hc ▸ hsource, hline, fun hne => absurd hc hne⟩
  · obtain ⟨start, rest, hline, hcolumn⟩ :=
      exists_line_of_character before after hform hc
    obtain ⟨v, w, hsource, hv, hstart⟩ := Text.exists_place (line_of_kept h hline (by simp))
    exact ⟨v, w, hsource, hv, fun _ => hstart.trans hcolumn⟩

theorem keepsLines : KeepsLines source before form (behindEmpty before form) where
  character p q c hform := by
    obtain ⟨v, w, hsource, hline, hcolumn⟩ := exists_character h hform
    refine ⟨behindEmpty before p, v, w, ?_, hsource, ?_, hline, hcolumn⟩
    · rw [hform]
      exact (List.append_assoc ..).symm
    · rw [hline, behindEmpty, Text.lineBehind_append, Text.lineBehind_append, lineBehind,
        List.count_replicate_self]
  above n hn := line_above_form hn
  between n line hfirst hlast hline := by
    obtain ⟨k, rfl⟩ := Nat.exists_eq_add_of_le (Nat.le_of_lt hfirst)
    rw [Text.lineBehind_append] at hlast
    rw [line_of_form] at hline
    obtain ⟨left, right, hwhole, hleft, hright⟩ :=
      exists_line_of_form before after hline
    rw [hleft (by omega), hright (by omega), List.nil_append, List.append_nil] at hwhole
    by_cases hempty : line = []
    · exact .inl hempty
    · exact .inr (line_of_kept h hwhole hempty)
  ends n hn := by
    obtain ⟨k, rfl, hk⟩ : ∃ k, n = lineBehind before + k ∧ k ≤ lineBehind form := by
      rw [Text.lineBehind_append] at hn
      rcases hn with rfl | rfl
      · exact ⟨0, rfl, Nat.zero_le _⟩
      · exact ⟨_, rfl, Nat.le_refl _⟩
    have hlength : k < (splitOnChar '\n' form).length := by
      rw [Text.length_splitOnChar]
      exact Nat.lt_succ_of_le hk
    have hline := List.getElem?_eq_getElem hlength
    obtain ⟨left, right, hwhole, -⟩ :=
      exists_line_of_form before after hline
    obtain ⟨whole, hsource, hkept⟩ := exists_line_of_kept h hwhole
    refine ⟨_, whole, by rw [line_of_form, hline], hsource, ?_⟩
    rcases hkept with rfl | hempty
    · exact ⟨left, right, List.append_assoc ..⟩
    · rw [(List.append_eq_nil_iff.1 (List.append_eq_nil_iff.1 hempty).2).1]
      exact List.nil_infix
  length := by
    rw [Text.length_splitOnChar, behindEmpty, List.count_append, List.count_replicate_self,
      Text.lineBehind_append]
    rfl
  length_le := by
    rw [h.length_eq, Text.length_splitOnChar, Text.length_splitOnChar, behindEmpty]
    simp only [lineBehind, List.count_append, List.count_replicate_self]
    omega

end Kept

/-- **Lines of a test script.** If a script is expanded and a form is found in what is left of it,
there is a text that is compiled for the script, and what stands in it stands on the same line of
the script. -/
theorem lines_kept {defines : List String} {source expanded : String} {s e : Nat}
    (h : expand defines source = .ok expanded)
    (hform : find? expanded.toUTF8.toList = some (s, e)) :
    ∃ before form after text : String, FormAt expanded s e before form after ∧
      extract? expanded = some text ∧
      (∀ path, Language.wast.translate path expanded = translateText path text) ∧
      KeepsLines source.toList before.toList form.toList text.toList := by
  obtain ⟨before, form, after, hat, htext⟩ := exists_formAt hform
  refine ⟨before, form, after, _, hat, htext, ?_, ?_⟩
  · intro path
    simp only [Language.translate, htext]
  · have hlines := expand_lines h
    rw [linesOf, linesOf, hat.source_eq, String.toList_append, String.toList_append] at hlines
    rw [String.toList_append, String.toList_ofList]
    exact keepsLines hlines

/-- A form that begins in the middle of a line, between lines of a condition. -/
theorem lines_kept_of_selected_form :
    expand ["gpu"] "a\n;;#if gpu\n(b) (module ;; é\n;;#else\n(c)\n;;#endif\n (memory 1)) (d)\n" =
        .ok "a\n\n(b) (module ;; é\n\n\n\n (memory 1)) (d)\n" ∧
    find? "a\n\n(b) (module ;; é\n\n\n\n (memory 1)) (d)\n".toUTF8.toList = some (7, 36) ∧
    ∃ before form after text : String,
      FormAt "a\n\n(b) (module ;; é\n\n\n\n (memory 1)) (d)\n" 7 36 before form after ∧
      extract? "a\n\n(b) (module ;; é\n\n\n\n (memory 1)) (d)\n" = some text ∧
      (∀ path, Language.wast.translate path "a\n\n(b) (module ;; é\n\n\n\n (memory 1)) (d)\n" =
        translateText path text) ∧
      KeepsLines "a\n;;#if gpu\n(b) (module ;; é\n;;#else\n(c)\n;;#endif\n (memory 1)) (d)\n".toList
        before.toList form.toList text.toList := by
  have hexpand : expand ["gpu"]
      "a\n;;#if gpu\n(b) (module ;; é\n;;#else\n(c)\n;;#endif\n (memory 1)) (d)\n" =
      .ok "a\n\n(b) (module ;; é\n\n\n\n (memory 1)) (d)\n" := rfl
  have hfind : find? "a\n\n(b) (module ;; é\n\n\n\n (memory 1)) (d)\n".toUTF8.toList =
      some (7, 36) := by
    rw [Text.toList_toUTF8_eq_flatMap]
    decide +kernel
  exact ⟨hexpand, hfind, lines_kept hexpand hfind⟩

end ScriptHost.ModuleForm

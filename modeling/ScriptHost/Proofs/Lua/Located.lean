import Mathlib.Data.List.Forall2
import Mathlib.Data.List.Induction
import Mathlib.Data.Nat.Digits.Defs
import ScriptHost.Lua.Located
import ScriptHost.Proofs.Text.Pieces

/-!
# Messages that are collected

A text is collected as one message (`Located.Of`). Its line is the leftmost number that stands
between colons with a blank behind (`FirstNumber`), and the message is what follows. Where that
number is none that a line can have, the text is kept as it is, whatever stands further right. So no
text is lost: a message is all of its text or the end of it. A syntax error gives one message for
each of its lines that says something, and the messages are shown in the order in which they came
(`collected`).
-/

namespace ScriptHost.Lua

namespace Located

variable {text before digits after : List Char}

/-- In the text, digits stand between a colon and a colon with a blank. -/
structure NumberAt (text before digits after : List Char) : Prop where
  text_eq : text = before ++ ':' :: (digits ++ ':' :: ' ' :: after)
  digits_ne_nil : digits ≠ []
  decimal : ∀ c ∈ digits, Text.isDecimalDigit c = true

/-- No such digits stand further left. -/
structure FirstNumber (text before digits after : List Char) : Prop
    extends NumberAt text before digits after where
  first : ∀ {earlier others rest}, NumberAt text earlier others rest →
    before.length ≤ earlier.length

/-- The number that ASCII digits write. -/
def numberOf (digits : List Char) : Nat :=
  Nat.ofDigits 10 (digits.map fun c => c.toNat - '0'.toNat).reverse

/-- The message that a text is collected as. -/
inductive Of (text : List Char) : Located → Prop
  | located {before digits after : List Char} (hline : '\n' ∉ text)
      (h : FirstNumber text before digits after) (hascii : ∀ c ∈ digits, c.isDigit = true)
      (hfits : numberOf digits < 2 ^ 32) : Of text ⟨some (numberOf digits), after⟩
  | whole (h : ∀ {before digits after}, FirstNumber text before digits after →
      '\n' ∈ text ∨ (∃ c ∈ digits, c.isDigit = false) ∨ 2 ^ 32 ≤ numberOf digits) :
      Of text ⟨none, text⟩

/-! ## The leftmost number -/

theorem not_isDecimalDigit_colon : Text.isDecimalDigit ':' = false := by decide

/-- Digits end where the colon behind them stands. -/
theorem NumberAt.cut (h : NumberAt text before digits after) :
    (digits ++ ':' :: ' ' :: after).takeWhile Text.isDecimalDigit = digits ∧
      (digits ++ ':' :: ' ' :: after).dropWhile Text.isDecimalDigit = ':' :: ' ' :: after := by
  refine Text.takeWhile_next h.decimal fun c hc => ?_
  cases hc
  exact not_isDecimalDigit_colon

theorem numberAt?_eq_some_iff :
    numberAt? text = some (digits, after) ↔ NumberAt text [] digits after := by
  constructor
  · intro h
    rw [numberAt?.eq_def] at h
    split at h
    · rename_i rest
      dsimp only at h
      split at h
      · cases h
      · rename_i hdigits
        split at h
        · rename_i tail hrest
          cases h
          refine ⟨?_, hdigits, fun c hc => List.all_eq_true.1 List.all_takeWhile c hc⟩
          rw [← hrest, List.takeWhile_append_dropWhile, List.nil_append]
        · cases h
    · cases h
  · intro h
    obtain ⟨hdigits, hrest⟩ := h.cut
    rw [h.text_eq, List.nil_append, numberAt?, hdigits, hrest, if_neg h.digits_ne_nil]
    rfl

theorem numberAt_cons {c : Char} :
    NumberAt (c :: text) (c :: before) digits after ↔ NumberAt text before digits after := by
  constructor
  · intro h
    exact ⟨List.tail_eq_of_cons_eq h.text_eq, h.digits_ne_nil, h.decimal⟩
  · intro h
    exact ⟨congrArg (c :: ·) h.text_eq, h.digits_ne_nil, h.decimal⟩

/-- A number begins at the first character of a text or behind it. -/
theorem NumberAt.cons_cases {c : Char} (h : NumberAt (c :: text) before digits after) :
    before = [] ∨ ∃ tail, before = c :: tail ∧ NumberAt text tail digits after := by
  cases before with
  | nil => exact .inl rfl
  | cons d tail =>
    obtain rfl : c = d := List.head_eq_of_cons_eq h.text_eq
    exact .inr ⟨tail, rfl, numberAt_cons.1 h⟩

/-- The search goes through the text from left to right. -/
theorem firstNumber?_cases (text : List Char) :
    (∃ before digits after, firstNumber? text = some (digits, after) ∧
        FirstNumber text before digits after) ∨
      firstNumber? text = none ∧ ∀ before digits after, ¬ NumberAt text before digits after := by
  induction text with
  | nil => exact .inr ⟨rfl, fun _ _ _ h => absurd h.text_eq (by simp)⟩
  | cons c rest ih =>
    rw [firstNumber?]
    cases hn : numberAt? (c :: rest) with
    | some found =>
      exact .inl ⟨[], found.1, found.2, rfl, numberAt?_eq_some_iff.1 hn, fun _ => Nat.zero_le _⟩
    | none =>
      have hbehind {before digits after : List Char}
          (h : NumberAt (c :: rest) before digits after) :
          ∃ tail, before = c :: tail ∧ NumberAt rest tail digits after := by
        obtain rfl | hcons := h.cons_cases
        · exact absurd (numberAt?_eq_some_iff.2 h) (by simp [hn])
        · exact hcons
      obtain ⟨before, digits, after, hfound, hfirst⟩ | ⟨hnone, hno⟩ := ih
      · refine .inl ⟨c :: before, digits, after, hfound, numberAt_cons.2 hfirst.toNumberAt, ?_⟩
        intro earlier others tail h
        obtain ⟨start, rfl, hrest⟩ := hbehind h
        exact Nat.succ_le_succ (hfirst.first hrest)
      · refine .inr ⟨hnone, fun before digits after h => ?_⟩
        obtain ⟨tail, -, h⟩ := hbehind h
        exact hno tail digits after h

theorem FirstNumber.unique {before' digits' after' : List Char}
    (h : FirstNumber text before digits after) (h' : FirstNumber text before' digits' after') :
    digits = digits' ∧ after = after' := by
  have hlength : before.length = before'.length :=
    Nat.le_antisymm (h.first h'.toNumberAt) (h'.first h.toNumberAt)
  obtain ⟨-, hrest⟩ := List.append_inj (h.text_eq.symm.trans h'.text_eq) hlength
  have hrest := List.tail_eq_of_cons_eq hrest
  have hcut := h.cut
  rw [hrest, h'.cut.1, h'.cut.2] at hcut
  exact ⟨hcut.1.symm, (List.cons.inj (List.cons.inj hcut.2).2).2.symm⟩

/-! ## One message -/

theorem digitsValue_eq (digits : List Char) : Text.digitsValue digits = numberOf digits := by
  induction digits using List.reverseRecOn with
  | nil => rfl
  | append_singleton digits c ih =>
    rw [Text.digitsValue, List.foldl_append, ← Text.digitsValue, ih, numberOf, numberOf,
      List.map_append, List.reverse_append, List.map_singleton, List.reverse_singleton,
      List.singleton_append, Nat.ofDigits_cons]
    exact Nat.add_comm _ _

theorem lineOf?_eq_some_iff {n : Nat} : lineOf? digits = some n ↔
    (∀ c ∈ digits, c.isDigit = true) ∧ numberOf digits < 2 ^ 32 ∧ n = numberOf digits := by
  unfold lineOf?
  rw [digitsValue_eq]
  by_cases hascii : digits.all Char.isDigit = true
  · rw [if_pos hascii]
    dsimp only
    split
    · rename_i hfits
      rw [Option.some.injEq]
      exact ⟨fun h => ⟨List.all_eq_true.1 hascii, hfits, h.symm⟩, fun h => h.2.2.symm⟩
    · rename_i hfits
      exact iff_of_false nofun fun h => hfits h.2.1
  · rw [if_neg hascii]
    exact iff_of_false nofun fun h => hascii (List.all_eq_true.2 h.1)

theorem lineOf?_eq_none (h : lineOf? digits = none) :
    (∃ c ∈ digits, c.isDigit = false) ∨ 2 ^ 32 ≤ numberOf digits := by
  by_contra hno
  push Not at hno
  have hascii : ∀ c ∈ digits, c.isDigit = true :=
    fun c hc => Bool.eq_true_of_not_eq_false (hno.1 c hc)
  exact absurd (lineOf?_eq_some_iff.2 ⟨hascii, hno.2, rfl⟩) (by simp [h])

theorem of_ofText (text : List Char) : (ofText text).Of text := by
  unfold ofText
  split
  · rename_i hline
    exact .whole fun _ => .inl (List.contains_iff_mem.1 hline)
  · rename_i hline
    have hline : '\n' ∉ text := fun h => hline (List.contains_iff_mem.2 h)
    obtain ⟨before, digits, after, hfound, hfirst⟩ | ⟨hnone, hno⟩ := firstNumber?_cases text
    · rw [hfound]
      dsimp only
      split
      · rename_i hn
        obtain ⟨hascii, hfits, rfl⟩ := lineOf?_eq_some_iff.1 hn
        exact .located hline hfirst hascii hfits
      · rename_i hn
        refine .whole fun h => .inr ?_
        obtain ⟨rfl, -⟩ := hfirst.unique h
        exact lineOf?_eq_none hn
    · rw [hnone]
      exact .whole fun h => absurd h.toNumberAt (hno _ _ _)

/-- There is one message that a text is collected as. -/
theorem Of.unique {l m : Located} (hl : l.Of text) (hm : m.Of text) : l = m := by
  -- a number that gives a line leaves nothing to the other constructor
  have apart {before digits after : List Char} (hline : '\n' ∉ text)
      (hfirst : FirstNumber text before digits after) (hascii : ∀ c ∈ digits, c.isDigit = true)
      (hfits : numberOf digits < 2 ^ 32)
      (h : ∀ {before digits after}, FirstNumber text before digits after →
        '\n' ∈ text ∨ (∃ c ∈ digits, c.isDigit = false) ∨ 2 ^ 32 ≤ numberOf digits) : False := by
    obtain hnewline | ⟨c, hc, hdigit⟩ | hgreat := h hfirst
    · exact hline hnewline
    · exact Bool.false_ne_true (hdigit.symm.trans (hascii c hc))
    · exact Nat.not_lt_of_le hgreat hfits
  cases hl with
  | located hline hfirst hascii hfits =>
    cases hm with
    | located _ hfirst' _ _ =>
      obtain ⟨rfl, rfl⟩ := hfirst.unique hfirst'
      rfl
    | whole h => exact (apart hline hfirst hascii hfits h).elim
  | whole h =>
    cases hm with
    | located hline hfirst hascii hfits => exact (apart hline hfirst hascii hfits h).elim
    | whole _ => rfl

end Located

/-! ## Lines -/

/-- The lines of a text. Each ends with a line feed, or with a carriage return and a line feed; the
last need not end. -/
inductive Lines : List Char → List (List Char) → Prop
  | nil : Lines [] []
  | last {line : List Char} (hne : line ≠ []) (hline : '\n' ∉ line) : Lines line [line]
  | feed {line rest : List Char} {lines : List (List Char)} (hline : '\n' ∉ line)
      (hreturn : line.getLast? ≠ some '\r') (h : Lines rest lines) :
      Lines (line ++ '\n' :: rest) (line :: lines)
  | returnFeed {line rest : List Char} {lines : List (List Char)} (hline : '\n' ∉ line)
      (h : Lines rest lines) : Lines (line ++ '\r' :: '\n' :: rest) (line :: lines)

theorem textLines_of_not_mem {line : List Char} (h : '\n' ∉ line) :
    textLines line = if line = [] then [] else [line] := by
  rw [textLines, Text.splitOnChar_of_not_mem h]
  rfl

theorem textLines_append {line : List Char} (h : '\n' ∉ line) (rest : List Char) :
    textLines (line ++ '\n' :: rest) =
      (if line.getLast? = some '\r' then line.dropLast else line) :: textLines rest := by
  rw [textLines, textLines, Text.splitOnChar_append h]
  obtain ⟨piece, pieces, hp⟩ := List.exists_cons_of_ne_nil (Text.splitOnChar_ne_nil '\n' rest)
  rw [hp]
  rfl

theorem lines_textLines (text : List Char) : Lines text (textLines text) := by
  induction hn : text.length using Nat.strongRecOn generalizing text with
  | ind n ih =>
    subst hn
    by_cases hmem : '\n' ∈ text
    · obtain ⟨line, rest, rfl, hline⟩ := List.eq_append_cons_of_mem hmem
      have hrest : Lines rest (textLines rest) := by
        refine ih rest.length ?_ rest rfl
        rw [List.length_append, List.length_cons]
        omega
      rw [textLines_append hline]
      split
      · rename_i hreturn
        obtain ⟨start, rfl⟩ := List.getLast?_eq_some_iff.1 hreturn
        rw [List.dropLast_concat, List.append_assoc]
        exact .returnFeed (fun h => hline (List.mem_append_left _ h)) hrest
      · rename_i hreturn
        exact .feed hline hreturn hrest
    · rw [textLines_of_not_mem hmem]
      split
      · rename_i hnil
        exact hnil ▸ .nil
      · rename_i hne
        exact .last hne hmem

/-! ## All messages -/

theorem joinWith_eq_intercalate (sep : Char) (pieces : List (List Char)) :
    Text.joinWith sep pieces = [sep].intercalate pieces := by
  induction pieces with
  | nil => rfl
  | cons piece rest ih =>
    cases rest with
    | nil => simp [Text.joinWith, List.intercalate]
    | cons _ _ =>
      rw [Text.joinWith_cons piece (List.cons_ne_nil _ _), ih]
      simp [List.intercalate]

namespace Collector

/-- **Collected messages.** A text adds one message, the one that it is to be collected as. A syntax
error adds one for each of its lines that is not blank, in their order. All are shown as they are,
each on a line of its own, with the number of its line behind it where it has one. -/
theorem collected (c : Collector) :
    (∀ text, ∃ m, (c.push text).messages = c.messages ++ [m] ∧ ∀ l : Located, l.Of text ↔ l = m) ∧
    (∀ error : String, ∃ lines messages, Lines error.toList lines ∧
      (c.collect error).messages = c.messages ++ messages ∧
      List.Forall₂ (fun line m => ∀ l : Located, l.Of line ↔ l = m)
        (lines.filter fun line => !line.all Text.isBlank) messages) ∧
    c.render.toList = ['\n'].intercalate (c.messages.map fun m => m.message ++
      match m.line with
      | some n => (" (line " ++ toString n ++ ")").toList
      | none => []) := by
  have hof (text : List Char) (l : Located) : l.Of text ↔ l = .ofText text :=
    ⟨fun h => h.unique (Located.of_ofText text), fun h => h ▸ Located.of_ofText text⟩
  refine ⟨fun text => ⟨_, rfl, hof text⟩, fun error => ?_, ?_⟩
  · refine ⟨_, _, lines_textLines error.toList, rfl, ?_⟩
    rw [Located.ofSyntaxError, List.forall₂_map_right_iff]
    exact List.forall₂_same.2 fun line _ => hof line
  · rw [render, Located.renderAll, String.toList_ofList, joinWith_eq_intercalate]
    congr 2
    funext m
    unfold Located.render
    cases m.line with
    | none => exact (List.append_nil _).symm
    | some n => simp

/-- A number that does not fit keeps those behind it from being read. -/
example : (({} : Collector).push "a:4294967296: b:7: c".toList).messages =
    [⟨none, "a:4294967296: b:7: c".toList⟩] := by decide +kernel

end Collector

end ScriptHost.Lua

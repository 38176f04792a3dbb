import ScriptHost.Compile
import ScriptHost.Proofs.ModuleForm.Lines
import ScriptHost.Proofs.ModuleForm.Pieces
import ScriptHost.Proofs.Wasm.Text.Encoding
import ScriptHost.Proofs.Wasm.Text.Lines

/-!
# One module in both languages

A text that is one module form besides blanks and comments (`SingleModule`) can be translated as a
module text and as a test script. Where the search finds the form, both give the same binary, or the
same mistake on the same line (`languages_agree`): the form on its own, behind empty lines, has the
tokens of the text at other places (`formsUpTo`), and nothing that is read of tokens depends on
where they stand. The search finds the form if its word stands directly behind the parenthesis, with
a blank or a closing parenthesis behind it (`Plain`); module texts need neither.
-/

namespace ScriptHost.ModuleForm

open Wasm.Text (Placed)
open Wasm.Text.Token (Piece Read bytesOf bytesOf_append bytesOf_ascii bytesOf_cons
  length_flatMap_utf8EncodeChar append_inj_of_bytesOf upToReserved upToReserved_cons
  upToReserved_reserved)
open String (utf8EncodeChar)

variable {place : Nat} {cs : List Char} {ts : List Placed}

/-! ## A text that is one form -/

/-- The tokens close so many open forms, the outermost one at `last`, and nothing comes behind. -/
inductive Closes (last : Nat) : Nat → List Placed → Prop
  | last (e : Nat) : Closes last 1 [⟨.closing, last⟩, ⟨.finish, e⟩]
  | opening {n : Nat} {ts : List Placed} (p : Nat) (h : Closes last (n + 2) ts) :
    Closes last (n + 1) (⟨.opening, p⟩ :: ts)
  | closing {n : Nat} {ts : List Placed} (p : Nat) (h : Closes last (n + 1) ts) :
    Closes last (n + 2) (⟨.closing, p⟩ :: ts)
  | other {n : Nat} {t : Wasm.Text.Token} {ts : List Placed} (p : Nat) (ho : t ≠ .opening)
    (hc : t ≠ .closing) (h : Closes last (n + 1) ts) : Closes last (n + 1) (⟨t, p⟩ :: ts)

theorem Closes.exists_finish {last n : Nat} {ts : List Placed} (h : Closes last n ts) :
    ∃ t ∈ ts, t.token = .finish := by
  induction h with
  | last e => exact ⟨⟨.finish, e⟩, by simp, rfl⟩
  | opening _ _ ih | closing _ _ ih | other _ _ _ _ ih =>
    obtain ⟨t, ht, hf⟩ := ih
    exact ⟨t, List.mem_cons_of_mem _ ht, hf⟩

theorem place_of_finish {e : Nat} (h : Read place cs [⟨.finish, e⟩]) : e = place + bytesOf cs := by
  generalize hts : [(⟨.finish, e⟩ : Placed)] = ts at h
  induction h with
  | finish place =>
    obtain ⟨⟨⟩, -⟩ := hts
    rfl
  | skip _ _ ih => rw [ih hts, bytesOf_append, Nat.add_assoc]
  | token hp _ _ =>
    obtain ⟨⟨⟩, -⟩ := hts
    exact absurd rfl hp.ne_finish

/-- Behind the form, the search ends with nothing. -/
theorem scan_behind {e : Nat} (h : Read place cs [⟨.finish, e⟩]) (hl : NoLoneReturn cs) :
    scan .text place 0 none (cs.flatMap utf8EncodeChar) = none := by
  generalize hts : [(⟨.finish, e⟩ : Placed)] = ts at h
  induction h with
  | finish place => exact scan_nil ..
  | skip hp _ ih =>
    rw [scan_piece hp nofun nofun hl]
    exact ih hl.of_append hts
  | token hp _ _ =>
    obtain ⟨⟨⟩, -⟩ := hts
    exact absurd rfl hp.ne_finish

/-- The search goes through a form to the parenthesis that closes it. -/
theorem scan_form {n last : Nat} (h : Read place cs ts) (hc : Closes last (n + 1) ts)
    (hl : NoLoneReturn cs) (start : Option Nat) :
    scan .text place (n + 1) start (cs.flatMap utf8EncodeChar) =
      start.map fun first => (first, last + 1) := by
  induction h generalizing n with
  | finish place => cases hc with | other _ _ _ h => cases h
  | skip hp _ ih =>
    rw [scan_piece hp nofun nofun hl]
    exact ih hc hl.of_append
  | @token place text after t ts hp h ih =>
    cases hc with
    | last e =>
      obtain rfl := hp.of_closing
      have hend : scan .text last 1 start (([')'] ++ after).flatMap utf8EncodeChar) =
          (match start with
          | some first => some (first, last + 1)
          | none => scan .text (last + 1) 0 none (after.flatMap utf8EncodeChar)) := by
        cases start <;> rfl
      rw [hend]
      cases start with
      | none => exact scan_behind h hl.of_append
      | some first => rfl
    | opening _ hc =>
      obtain ⟨rfl, hn⟩ := hp.of_opening
      have hnext := head?_flatMap_utf8EncodeChar (d := ';') rfl hn
      refine (scan_opening hnext).trans ?_
      rw [if_neg (by simp)]
      exact ih hc hl.of_append
    | closing _ hc =>
      obtain rfl := hp.of_closing
      exact (scan_closing _).trans (ih hc hl.of_append)
    | other _ ho hclose hc =>
      rw [scan_piece hp (by simpa using ho) (by simpa using hclose) hl]
      exact ih hc hl.of_append

/-- Before its opening parenthesis there are only blanks and comments. -/
theorem exists_opening {first : Nat} (h : Read place cs (⟨.opening, first⟩ :: ts)) :
    ∃ before after, cs = before ++ '(' :: after ∧ place + bytesOf before = first ∧
      after.head? ≠ some ';' ∧ Read (first + 1) after ts ∧
      (NoLoneReturn cs → scan .text place 0 none (cs.flatMap utf8EncodeChar) =
        scan .text first 0 none (('(' :: after).flatMap utf8EncodeChar)) := by
  generalize hts : (⟨.opening, first⟩ : Placed) :: ts = us at h
  induction h with
  | finish place => cases hts
  | @skip place text after us hp _ ih =>
    obtain ⟨before, after, rfl, rfl, hnext, hread, hscan⟩ := ih hts
    refine ⟨text ++ before, after, by simp, ?_, hnext, hread, fun hl => ?_⟩
    · rw [bytesOf_append, Nat.add_assoc]
    · rw [scan_piece hp nofun nofun hl]
      exact hscan hl.of_append
  | token hp h _ =>
    obtain ⟨⟨⟩, rfl⟩ := List.cons.inj hts
    obtain ⟨rfl, hn⟩ := hp.of_opening
    exact ⟨[], _, rfl, rfl, hn, h, fun _ => rfl⟩

theorem place_le {t : Wasm.Text.Token} {p : Nat} (h : Read place cs (⟨t, p⟩ :: ts)) :
    place ≤ p := by
  generalize hts : (⟨t, p⟩ : Placed) :: ts = us at h
  induction h with
  | finish place | token _ _ _ =>
    obtain ⟨⟨⟩, -⟩ := List.cons.inj hts
    exact Nat.le_refl _
  | skip _ _ ih => exact Nat.le_trans (Nat.le_add_right ..) (ih hts)

/-- A text is one form besides blanks and comments: it opens at `first`, its first token is the
word `module` at `word`, and it closes at `last`. There may be reserved tokens in it. -/
def SingleModule (source : String) (first word last : Nat) : Prop :=
  ∃ ts, Read 0 source.toList (⟨.opening, first⟩ :: ⟨.word "module".toList, word⟩ :: ts) ∧
    Closes last 1 ts

theorem singleModule_of_tokens {source : String} {first word last : Nat} {ts : List Placed}
    (h : Wasm.Text.tokens source = ⟨.opening, first⟩ :: ⟨.word "module".toList, word⟩ :: ts)
    (hc : Closes last 1 ts) : SingleModule source first word last := by
  obtain ⟨t, ht, hfinish⟩ := hc.exists_finish
  have hmem : t ∈ Wasm.Text.tokens source := by
    rw [h]
    exact List.mem_cons_of_mem _ (List.mem_cons_of_mem _ ht)
  exact ⟨ts, h ▸ Wasm.Text.Token.read_of_scan (Nat.le_refl _) ⟨t, hmem, hfinish⟩, hc⟩

/-- The word stands directly behind the parenthesis, and directly behind it there is a blank or a
closing parenthesis. -/
def Plain (source : String) (first word : Nat) : Prop :=
  word = first + 1 ∧
    ∃ b ∈ source.toUTF8.toList[word + 6]?, isBlankByte b = true ∨ b = 0x29

instance (source : String) (first word : Nat) : Decidable (Plain source first word) :=
  inferInstanceAs (Decidable (_ ∧ _))

section SingleModule

variable {first word last : Nat}

theorem exists_byte_of_closes {place n : Nat} (h : Read place cs ts) (hc : Closes last n ts) :
    ∃ b rest, cs.flatMap utf8EncodeChar = b :: rest := by
  refine List.exists_cons_of_ne_nil fun hnil => ?_
  have hcs : cs = [] := Decidable.byContradiction fun hne => flatMap_ne_nil hne hnil
  cases h with
  | finish _ => cases hc with | other _ _ _ hc => cases hc
  | skip hp _ | token hp _ => exact hp.ne_nil (List.append_eq_nil_iff.1 hcs).1

theorem startsModule_of_skip {text after : List Char} (hp : Piece text none after.head?) :
    startsModule ((text ++ after).flatMap utf8EncodeChar) = false := by
  cases hp with
  | blank h => rcases h with rfl | rfl | rfl | rfl <;> rfl
  | line _ _ _ => rfl
  | block _ _ => rfl

theorem startsModule_iff_plain {before : List UInt8} (hsize : before.length = first)
    (h : Read (first + 1) cs (⟨.word "module".toList, word⟩ :: ts)) (hc : Closes last 1 ts) :
    startsModule (cs.flatMap utf8EncodeChar) = true ↔
      word = first + 1 ∧
        ∃ b ∈ (before ++ 0x28 :: cs.flatMap utf8EncodeChar)[word + 6]?,
          isBlankByte b = true ∨ b = 0x29 := by
  generalize hts : (⟨.word "module".toList, word⟩ : Placed) :: ts = us at h
  cases h with
  | finish _ => cases hts
  | skip hp h =>
    rw [startsModule_of_skip hp]
    subst hts
    have hplace := place_le h
    have hpos := List.length_pos_iff.2 (flatMap_ne_nil hp.ne_nil)
    rw [length_flatMap_utf8EncodeChar] at hpos
    exact ⟨nofun, fun h => by omega⟩
  | @token _ _ after _ _ hp h =>
    obtain ⟨⟨⟩, rfl⟩ := List.cons.inj hts
    obtain ⟨rfl, -⟩ := hp.of_word
    obtain ⟨b, rest, hb⟩ := exists_byte_of_closes h hc
    have hcut : before ++ 0x28 :: ("module".toList ++ after).flatMap utf8EncodeChar =
        (before ++ [0x28, 0x6d, 0x6f, 0x64, 0x75, 0x6c, 0x65]) ++ b :: rest := by
      rw [List.flatMap_append, hb, List.append_assoc]
      rfl
    have hword : (before ++ [0x28, 0x6d, 0x6f, 0x64, 0x75, 0x6c, 0x65]).length = first + 1 + 6 := by
      simp [hsize]
    have hstarts : startsModule (("module".toList ++ after).flatMap utf8EncodeChar) =
        (isBlankByte b || b == 0x29) := by
      rw [List.flatMap_append, hb]
      rfl
    rw [hstarts, hcut, ← hword, List.getElem?_append_right (Nat.le_refl _), Nat.sub_self]
    simp

end SingleModule

/-! ## The form on its own -/

/-- The places in a text that begins at `place` become those in the same text from `start` on. -/
def Shifts (f : Nat → Nat) (place start : Nat) (text : List Char) : Prop :=
  ∀ a b, text = a ++ b → b ≠ [] → f (place + bytesOf a) = start + bytesOf a

/-- The text begins with forms up to `last`. Wherever they stand on their own, their tokens are
those of the text at places moved with them. -/
def FormsUpTo (last place n : Nat) (cs : List Char) (ts : List Placed) : Prop :=
  ∃ form after, cs = form ++ after ∧ form ≠ [] ∧ place + bytesOf form = last + 1 ∧
    ∀ f start, Shifts f place start form →
      ∃ us, Read start form us ∧ Wasm.Text.Inside f (place + bytesOf cs) (start + bytesOf form) n
        (upToReserved ts) (upToReserved us)

section FormsUpTo

variable {f : Nat → Nat} {last n m : Nat} {text form after : List Char}

theorem Shifts.first {begin : Nat} (h : Shifts f place begin text) (hne : text ≠ []) :
    f place = begin :=
  h [] text rfl hne

theorem Shifts.of_append {begin : Nat} (h : Shifts f place begin (text ++ form)) :
    Shifts f (place + bytesOf text) (begin + bytesOf text) form := by
  intro a b hab hb
  have := h (text ++ a) b (by rw [hab, List.append_assoc]) hb
  rwa [bytesOf_append, ← Nat.add_assoc, ← Nat.add_assoc] at this

theorem head?_append_of_ne_nil (hne : form ≠ []) : (form ++ after).head? = form.head? := by
  obtain ⟨c, rest, rfl⟩ := List.exists_cons_of_ne_nil hne
  rfl

theorem FormsUpTo.skip (hp : Piece text none cs.head?)
    (h : FormsUpTo last (place + bytesOf text) n cs ts) :
    FormsUpTo last place n (text ++ cs) ts := by
  obtain ⟨form, after, rfl, hne, hlast, hform⟩ := h
  rw [head?_append_of_ne_nil hne] at hp
  refine ⟨text ++ form, after, (List.append_assoc ..).symm, by simp [hne], ?_, ?_⟩
  · rw [bytesOf_append, ← Nat.add_assoc, hlast]
  · intro f begin hf
    obtain ⟨us, hread, hin⟩ := hform f _ hf.of_append
    rw [bytesOf_append, bytesOf_append text form,
      ← Nat.add_assoc, ← Nat.add_assoc]
    exact ⟨us, .skip hp hread, hin⟩

theorem FormsUpTo.token {t : Wasm.Text.Token} (hp : Piece text (some t) cs.head?)
    (hin : ∀ {f e e' us}, Wasm.Text.Inside f e e' m (upToReserved ts) (upToReserved us) →
      Wasm.Text.Inside f e e' n (upToReserved (⟨t, place⟩ :: ts))
        (upToReserved (⟨t, f place⟩ :: us)))
    (h : FormsUpTo last (place + bytesOf text) m cs ts) :
    FormsUpTo last place n (text ++ cs) (⟨t, place⟩ :: ts) := by
  obtain ⟨form, after, rfl, hne, hlast, hform⟩ := h
  rw [head?_append_of_ne_nil hne] at hp
  refine ⟨text ++ form, after, (List.append_assoc ..).symm, by simp [hne], ?_, ?_⟩
  · rw [bytesOf_append, ← Nat.add_assoc, hlast]
  · intro f begin hf
    obtain ⟨us, hread, hus⟩ := hform f _ hf.of_append
    have hfirst : f place = begin := hf.first (by simp [hne])
    rw [bytesOf_append, bytesOf_append text form,
      ← Nat.add_assoc, ← Nat.add_assoc]
    exact ⟨_, .token hp hread, hfirst ▸ hin (by rwa [hfirst])⟩

/-- The closing parenthesis of the outermost form. -/
theorem FormsUpTo.closing {e : Nat} (h : Read (place + 1) cs [⟨.finish, e⟩]) :
    FormsUpTo place place 1 (')' :: cs) [⟨.closing, place⟩, ⟨.finish, e⟩] := by
  obtain rfl := place_of_finish h
  refine ⟨[')'], cs, rfl, by simp, rfl, fun f begin hf => ?_⟩
  have hfirst : f place = begin := hf.first (by simp)
  have hread : Read begin ([')'] ++ []) [⟨.closing, begin⟩, ⟨.finish, begin + 1⟩] :=
    .token .closing (.finish _)
  refine ⟨_, hread, ?_⟩
  rw [← hfirst, bytesOf_cons, ← Nat.add_assoc]
  exact .closing _ .finish

theorem inside_other {e e' : Nat} {t : Wasm.Text.Token} (ho : t ≠ .opening) (hc : t ≠ .closing)
    {us : List Placed} (h : Wasm.Text.Inside f e e' (n + 1) (upToReserved ts) (upToReserved us)) :
    Wasm.Text.Inside f e e' (n + 1) (upToReserved (⟨t, place⟩ :: ts))
      (upToReserved (⟨t, f place⟩ :: us)) := by
  by_cases ht : t = .reserved
  · subst ht
    rw [upToReserved_reserved, upToReserved_reserved]
    exact .reserved place
  · rw [upToReserved_cons ht, upToReserved_cons ht]
    exact .content place (t.isContent_iff.2 ⟨ho, hc, ht⟩) h

/-- So does a text that closes what is open. -/
theorem formsUpTo (h : Read place cs ts) (hc : Closes last (n + 1) ts) :
    FormsUpTo last place (n + 1) cs ts := by
  induction h generalizing n with
  | finish place => cases hc with | other _ _ _ h => cases h
  | skip hp _ ih => exact (ih hc).skip hp
  | token hp h ih =>
    cases hc with
    | last e =>
      obtain rfl := hp.of_closing
      exact .closing h
    | opening _ hc => exact (ih hc).token hp fun hin => .opening _ hin
    | closing _ hc => exact (ih hc).token hp fun hin => .closing _ hin
    | other _ ho hclose hc => exact (ih hc).token hp fun hin => inside_other ho hclose hin

end FormsUpTo

theorem read_empty_lines {n : Nat} (h : Read (place + n) cs ts) :
    Read place (List.replicate n '\n' ++ cs) ts := by
  induction n generalizing place with
  | zero => exact h
  | succ n ih =>
    have hline : place + bytesOf ['\n'] + n = place + (n + 1) := by
      rw [Nat.add_assoc, Nat.add_comm n]
      rfl
    have hblank : Piece ['\n'] none (List.replicate n '\n' ++ cs).head? :=
      .blank (.inr (.inl rfl))
    have hread : Read place (['\n'] ++ (List.replicate n '\n' ++ cs)) ts :=
      .skip hblank (ih (hline ▸ h))
    exact hread

theorem tokens_of_read {text : String} (h : Read 0 text.toList ts) :
    Wasm.Text.tokens text = upToReserved ts :=
  Wasm.Text.Token.scan_of_read h (Nat.le_refl _)

/-- A text that is one module is cut into what stands before the form, the form and what stands
behind it. -/
structure Cut (source : String) (first word last : Nat) (before form after : List Char)
    (ts : List Placed) : Prop where
  source_eq : source.toList = before ++ (form ++ after)
  bytesOf_before : bytesOf before = first
  bytesOf_form : first + bytesOf form = last + 1
  tokens : Wasm.Text.tokens source =
    ⟨.opening, first⟩ :: ⟨.word "module".toList, word⟩ :: ts
  /-- Behind empty lines the form has the tokens of the text, at places moved with it. -/
  moved (n : Nat) (f : Nat → Nat) (hf : Shifts f first n form) :
    ∃ us, Wasm.Text.tokens (String.ofList (List.replicate n '\n' ++ form)) =
        ⟨.opening, f first⟩ :: ⟨.word "module".toList, f word⟩ :: us ∧
      Wasm.Text.Inside f (bytesOf source.toList) (n + bytesOf form) 1 ts us

namespace SingleModule

variable {source : String} {first word last : Nat} (h : SingleModule source first word last)

include h

theorem exists_inside : ∃ before after ts, source.toList = before ++ '(' :: after ∧
    bytesOf before = first ∧ after.head? ≠ some ';' ∧
    Wasm.Text.tokens source =
      ⟨.opening, first⟩ :: ⟨.word "module".toList, word⟩ :: upToReserved ts ∧
    Read (first + 1) after (⟨.word "module".toList, word⟩ :: ts) ∧ Closes last 1 ts ∧
    (NoLoneReturn source.toList → find? source.toUTF8.toList =
      scan .text first 0 none (('(' :: after).flatMap utf8EncodeChar)) := by
  obtain ⟨ts, hread, hc⟩ := h
  have htokens := tokens_of_read hread
  rw [upToReserved_cons Wasm.Text.Token.noConfusion,
    upToReserved_cons Wasm.Text.Token.noConfusion] at htokens
  obtain ⟨before, after, hsource, hbefore, hnext, hafter, hscan⟩ := exists_opening hread
  rw [Nat.zero_add] at hbefore
  refine ⟨before, after, ts, hsource, hbefore, hnext, htokens, hafter, hc, fun hl => ?_⟩
  rw [find?, Text.toList_toUTF8_eq_flatMap]
  exact hscan hl

/-- The search finds the form if its word stands as the search looks for it, and otherwise it finds
nothing. -/
theorem find?_eq (hl : NoLoneReturn source.toList) :
    find? source.toUTF8.toList =
      if Plain source first word then some (first, last + 1) else none := by
  obtain ⟨before, after, ts, hsource, hbefore, hnext, -, hread, hc, hscan⟩ := h.exists_inside
  have hl' : NoLoneReturn after := (hsource ▸ hl).of_append.of_append (a := ['('])
  have hplain : startsModule (after.flatMap utf8EncodeChar) = true ↔ Plain source first word := by
    have hsize : (before.flatMap utf8EncodeChar).length = first :=
      (length_flatMap_utf8EncodeChar before).trans hbefore
    rw [startsModule_iff_plain hsize hread hc, Plain, Text.toList_toUTF8_eq_flatMap, hsource,
      List.flatMap_append]
    rfl
  have hopen : scan .text first 0 none (('(' :: after).flatMap utf8EncodeChar) =
      scan .text (first + 1) 1 (if Plain source first word then some first else none)
        (after.flatMap utf8EncodeChar) := by
    have hhead := head?_flatMap_utf8EncodeChar (d := ';') rfl hnext
    refine (scan_opening hhead).trans ?_
    simp only [hplain, true_and]
  rw [hscan hl, hopen, scan_form hread
    (.other _ Wasm.Text.Token.noConfusion Wasm.Text.Token.noConfusion hc) hl']
  split <;> rfl

theorem exists_cut : ∃ before form after ts, Cut source first word last before form after ts := by
  obtain ⟨before, after, ts, hsource, hbefore, hnext, htokens, hread, hc, -⟩ := h.exists_inside
  obtain ⟨form, after, rfl, hne, hlast, hform⟩ :=
    formsUpTo hread (.other _ Wasm.Text.Token.noConfusion Wasm.Text.Token.noConfusion hc)
  rw [head?_append_of_ne_nil hne] at hnext
  refine ⟨before, '(' :: form, after, _, hsource, hbefore, ?_, htokens, fun n f hf => ?_⟩
  · rw [bytesOf_cons, ← Nat.add_assoc]
    exact hlast
  · have hfirst : f first = 0 + n := (hf.first (List.cons_ne_nil _ _)).trans (Nat.zero_add n).symm
    have hf' : Shifts f first n (['('] ++ form) := hf
    obtain ⟨us, hus, hin⟩ := hform f _ hf'.of_append
    have hend : first + 1 + bytesOf (form ++ after) = bytesOf source.toList := by
      rw [hsource, bytesOf_append before, hbefore, Nat.add_assoc,
        bytesOf_cons '(']
      rfl
    rw [upToReserved_cons Wasm.Text.Token.noConfusion, hend] at hin
    have htext : Wasm.Text.tokens (String.ofList (List.replicate n '\n' ++ '(' :: form)) =
        ⟨.opening, f first⟩ :: upToReserved us := by
      have hopen : Piece ['('] (some .opening) form.head? := .opening hnext
      rw [hfirst, ← upToReserved_cons Wasm.Text.Token.noConfusion]
      refine tokens_of_read ?_
      rw [String.toList_ofList]
      refine read_empty_lines (.token hopen ?_)
      rwa [Nat.zero_add]
    generalize upToReserved us = own at hin htext
    cases hin with
    | content _ _ hin =>
      refine ⟨_, htext, ?_⟩
      rwa [bytesOf_cons, ← Nat.add_assoc]

end SingleModule

/-! ## What both languages give -/

theorem bytesOf_toList (s : String) : bytesOf s.toList = s.utf8ByteSize := by
  rw [← Text.length_toList_toUTF8, Text.toList_toUTF8_eq_flatMap,
    length_flatMap_utf8EncodeChar]

theorem bytesOf_emptyLines (n : Nat) : bytesOf (List.replicate n '\n') = n := by
  rw [bytesOf_ascii fun c hc => by rw [List.eq_of_mem_replicate hc]; rfl,
    List.length_replicate]

/-- The line of a mistake in a text. -/
def lineOf (source : String) (m : Wasm.Text.Mistake) : Nat :=
  (Wasm.Text.lineAt m.place (Wasm.Text.linesOf source)).1

/-- The same binary, or the same mistake on the same line. That there are two start fields is only
noticed where the texts end. -/
inductive SameOutcome (path source text : String) :
    Except TranslateError (List UInt8) → Except TranslateError (List UInt8) → Prop
  | binary (bytes : List UInt8) : SameOutcome path source text (.ok bytes) (.ok bytes)
  | mistake (m m' : Wasm.Text.Mistake) (hreason : m'.reason = m.reason)
    (hline : lineOf text m' = lineOf source m) :
    SameOutcome path source text (.error (.mistake path source m)) (.error (.mistake path text m'))
  | starts : SameOutcome path source text
    (.error (.mistake path source ⟨.manyStarts, source.utf8ByteSize⟩))
    (.error (.mistake path text ⟨.manyStarts, text.utf8ByteSize⟩))

open Classical in
/-- Places in the form are moved with it, all others become `elsewhere`. -/
noncomputable def shift (first n : Nat) (form : List Char) (elsewhere place : Nat) : Nat :=
  if ∃ a b, form = a ++ b ∧ b ≠ [] ∧ place = first + bytesOf a then n + (place - first)
  else elsewhere

theorem shifts_shift (first n : Nat) (form : List Char) (elsewhere : Nat) :
    Shifts (shift first n form elsewhere) first n form := by
  intro a b hab hb
  rw [shift, if_pos ⟨a, b, hab, hb, rfl⟩, Nat.add_sub_cancel_left]

namespace Cut

variable {source : String} {first word last : Nat} {before form after : List Char}
  (h : Cut source first word last before form after ts)

include h

theorem extract?_eq (hfind : find? source.toUTF8.toList = some (first, last + 1)) :
    extract? source =
      some (String.ofList (List.replicate (Text.lineBehind before) '\n' ++ form)) := by
  obtain ⟨before', form', after', hat, hextract⟩ := exists_formAt hfind
  have hcut : before ++ (form ++ after) = before'.toList ++ (form'.toList ++ after'.toList) := by
    rw [← h.source_eq, hat.source_eq, String.toList_append, String.toList_append]
  have hlast := hat.last
  rw [String.utf8ByteSize_append, hat.first, ← h.bytesOf_form, Nat.add_left_cancel_iff,
    ← bytesOf_toList] at hlast
  obtain ⟨rfl, hrest⟩ := append_inj_of_bytesOf hcut
    (by rw [bytesOf_toList, hat.first, h.bytesOf_before])
  obtain ⟨rfl, -⟩ := append_inj_of_bytesOf hrest hlast.symm
  rw [hextract, String.ofList_append, String.ofList_toList]

theorem movedBinary {n : Nat} {f : Nat → Nat} (hf : Shifts f first n form) :
    Wasm.Text.MovedBinary f source.utf8ByteSize
      (String.ofList (List.replicate n '\n' ++ form)).utf8ByteSize (Wasm.Text.encode source)
      (Wasm.Text.encode (String.ofList (List.replicate n '\n' ++ form))) := by
  obtain ⟨us, htokens, hin⟩ := h.moved n f hf
  rw [← bytesOf_toList source, ← bytesOf_toList, String.toList_ofList,
    bytesOf_append, bytesOf_emptyLines]
  exact Wasm.Text.encode_moved h.tokens htokens hin

/-- A mistake is made in the form, and the same one there on its own, unless it is only noticed
where the texts end. -/
theorem error_or_starts {m : Wasm.Text.Mistake} {text : String} {n : Nat}
    (ht : text = String.ofList (List.replicate n '\n' ++ form))
    (hm : Wasm.Text.encode source = .error m) :
    (∃ a b, form = a ++ b ∧ b ≠ [] ∧ m.place = first + bytesOf a ∧
        Wasm.Text.encode text = .error ⟨m.reason, n + bytesOf a⟩) ∨
      m = ⟨.manyStarts, source.utf8ByteSize⟩ ∧
        Wasm.Text.encode text = .error ⟨.manyStarts, text.utf8ByteSize⟩ := by
  subst ht
  have hmoved (elsewhere : Nat) :=
    (hm ▸ h.movedBinary (shifts_shift first n form elsewhere)).of_error
  obtain h0 | hstarts := hmoved 0
  · obtain h1 | hstarts := hmoved 1
    · -- the mistake has a place in the form, or it would depend on the choice of `elsewhere`
      have hplace : shift first n form 0 m.place = shift first n form 1 m.place :=
        congrArg Wasm.Text.Mistake.place (Except.error.inj (h0.symm.trans h1))
      by_cases hform : ∃ a b, form = a ++ b ∧ b ≠ [] ∧ m.place = first + bytesOf a
      · obtain ⟨a, b, hab, hb, hm⟩ := hform
        refine .inl ⟨a, b, hab, hb, hm, h0.trans ?_⟩
        rw [Wasm.Text.Mistake.move, hm, shifts_shift first n form 0 a b hab hb]
      · rw [shift, shift, if_neg hform, if_neg hform] at hplace
        exact absurd hplace Nat.zero_ne_one
    · exact .inr hstarts
  · exact .inr hstarts

theorem sameOutcome (path : String) {text : String}
    (ht : text = String.ofList (List.replicate (Text.lineBehind before) '\n' ++ form)) :
    SameOutcome path source text (translateText path source) (translateText path text) := by
  unfold translateText
  cases hm : Wasm.Text.encode source with
  | ok bytes =>
    have hmoved := h.movedBinary (shifts_shift first (Text.lineBehind before) form 0)
    rw [hm, ← ht] at hmoved
    rw [hmoved.of_ok]
    exact .binary bytes
  | error m =>
    obtain ⟨a, b, hab, hb, hplace, htext⟩ | ⟨rfl, htext⟩ := h.error_or_starts ht hm
    · rw [htext]
      refine .mistake m _ rfl ?_
      have hsource : source.toList = (before ++ a) ++ (b ++ after) := by
        rw [h.source_eq, hab, List.append_assoc, List.append_assoc]
      have hlines : text.toList =
          (List.replicate (Text.lineBehind before) '\n' ++ a) ++ b := by
        rw [ht, String.toList_ofList, hab, List.append_assoc]
      have hplaceSource : m.place = bytesOf (before ++ a) := by
        rw [hplace, bytesOf_append, h.bytesOf_before]
      have hplaceText : Text.lineBehind before + bytesOf a =
          bytesOf (List.replicate (Text.lineBehind before) '\n' ++ a) := by
        rw [bytesOf_append, bytesOf_emptyLines]
      rw [lineOf, lineOf, hplaceSource, hplaceText, Wasm.Text.lineAt_linesOf hlines hb,
        Wasm.Text.lineAt_linesOf hsource (by simp [hb]), List.count_append, List.count_append,
        List.count_replicate_self]
      rfl
    · rw [htext]
      exact .starts

end Cut

section SingleModule

variable {source : String} {first word last : Nat}

/-- **Both languages on one module.** If the form of a text that is one module is found, the text
gives the same binary in both languages, or the same mistake on the same line. Where no carriage
return stands alone in a line comment, the form is found exactly if its word stands as the search
looks for it, and otherwise no module is found. -/
theorem languages_agree (h : SingleModule source first word last) (path : String) :
    (find? source.toUTF8.toList = some (first, last + 1) →
      ∃ text, extract? source = some text ∧ SameOutcome path source text
        (Language.wat.translate path source) (Language.wast.translate path source)) ∧
    (NoLoneReturn source.toList →
      (find? source.toUTF8.toList = some (first, last + 1) ↔ Plain source first word) ∧
      (¬ Plain source first word →
        Language.wast.translate path source = .error (.noModule path))) := by
  constructor
  · intro hfind
    obtain ⟨before, form, after, ts, hcut⟩ := h.exists_cut
    have hextract := hcut.extract?_eq hfind
    refine ⟨_, hextract, ?_⟩
    simp only [Language.translate, hextract]
    exact hcut.sameOutcome path rfl
  · intro hl
    have hfind := h.find?_eq hl
    constructor
    · rw [hfind]
      split <;> simp [*]
    · intro hplain
      have hnone : extract? source = none := by
        rw [← Option.isNone_iff_eq_none, ← Option.not_isSome, isSome_extract?, hfind,
          if_neg hplain]
        rfl
      simp only [Language.translate, hnone]

end SingleModule

/-- A module with an empty function, between a line feed and a comment. -/
def plainModule : String := "\n(module (func)) ;; m\n"

theorem languages_agree_plainModule :
    SingleModule plainModule 1 2 15 ∧ NoLoneReturn plainModule.toList ∧ Plain plainModule 1 2 ∧
      ∃ text, extract? plainModule = some text ∧ SameOutcome "m" plainModule text
        (Language.wat.translate "m" plainModule) (Language.wast.translate "m" plainModule) := by
  have hsingle : SingleModule plainModule 1 2 15 :=
    singleModule_of_tokens rfl (.opening _ (.other _ nofun nofun (.closing _ (.last _))))
  have hl : NoLoneReturn plainModule.toList := noLoneReturn_of_not_mem (by decide)
  have hplain : Plain plainModule 1 2 := by
    rw [Plain, Text.toList_toUTF8_eq_flatMap]
    decide
  obtain ⟨hfound, hsearch⟩ := languages_agree hsingle "m"
  exact ⟨hsingle, hl, hplain, hfound ((hsearch hl).1.2 hplain)⟩

/-- The same with nothing between the word and the function. -/
def tightModule : String := "(module(func))"

theorem not_languages_agree_tightModule :
    SingleModule tightModule 0 1 13 ∧ NoLoneReturn tightModule.toList ∧
      (∃ bytes, Language.wat.translate "m" tightModule = .ok bytes) ∧
      Language.wast.translate "m" tightModule = .error (.noModule "m") := by
  have hsingle : SingleModule tightModule 0 1 13 :=
    singleModule_of_tokens rfl (.opening _ (.other _ nofun nofun (.closing _ (.last _))))
  have hl : NoLoneReturn tightModule.toList := noLoneReturn_of_not_mem (by decide)
  refine ⟨hsingle, hl, ⟨_, rfl⟩, ?_⟩
  have hextract : extract? tightModule = none := by
    rw [extract?, split?, Text.toList_toUTF8_eq_flatMap]
    rfl
  simp only [Language.translate, hextract]

end ScriptHost.ModuleForm

import ScriptHost.Proofs.ModuleForm.Search
import ScriptHost.Proofs.Wasm.Text.Tokens

/-!
# The search and the tokens of module texts

The search for a module form goes over bytes and has its own notion of comments and strings. It
agrees with the tokens of module texts on all but one thing: a carriage return ends a line comment
of a module text, and for the search only a line feed does. Where no comment holds a carriage return
alone (`NoLoneReturn`), the search passes over whatever is no parenthesis (`scan_piece`).
-/

namespace ScriptHost.ModuleForm

open Wasm.Text.Token (Piece bytesOf bytesOf_cons length_flatMap_utf8EncodeChar IsPlain isWordChar
  isReserved)
open String (utf8EncodeChar)

variable {place depth : Nat} {start : Option Nat}

/-- In a line behind two semicolons, a carriage return only stands before the line feed. -/
def NoLoneReturn (cs : List Char) : Prop :=
  ∀ a b c, cs = a ++ (';' :: ';' :: b ++ '\r' :: c) → '\n' ∈ b ∨ c.head? = some '\n'

theorem NoLoneReturn.of_append {a b : List Char} (h : NoLoneReturn (a ++ b)) : NoLoneReturn b := by
  rintro x y z rfl
  exact h (a ++ x) y z (by simp)

theorem noLoneReturn_of_not_mem {cs : List Char} (h : '\r' ∉ cs) : NoLoneReturn cs := by
  rintro a b c rfl
  exact absurd (by simp) h

/-! ## Pieces of a module text -/

/-- The bytes of a character are not those of others in ASCII. -/
theorem byte_ne {c d : Char} (hd : d.utf8Size = 1) (hc : c ≠ d) {b : UInt8}
    (hb : b ∈ utf8EncodeChar c) : b ≠ d.toUInt8 := by
  rintro rfl
  exact hc (Text.eq_of_mem_utf8EncodeChar hd hb)

theorem head?_flatMap_utf8EncodeChar {d : Char} (hd : d.utf8Size = 1) {cs : List Char}
    (h : cs.head? ≠ some d) : (cs.flatMap utf8EncodeChar).head? ≠ some d.toUInt8 := by
  cases cs with
  | nil => simp
  | cons c rest =>
    intro hhead
    have hmem : d.toUInt8 ∈ utf8EncodeChar c := by
      rw [List.flatMap_cons] at hhead
      cases hb : utf8EncodeChar c with
      | nil => exact absurd hb String.utf8EncodeChar_ne_nil
      | cons b bs =>
        rw [hb] at hhead
        exact List.mem_cons.2 (.inl (Option.some.inj hhead).symm)
    exact h (congrArg some (Text.eq_of_mem_utf8EncodeChar hd hmem))

theorem flatMap_ne_nil {cs : List Char} (h : cs ≠ []) : cs.flatMap utf8EncodeChar ≠ [] := by
  cases cs with
  | nil => exact absurd rfl h
  | cons c rest => simp

/-- Bytes that begin no mark are passed over. -/
theorem scan_plain {bytes : List UInt8}
    (h : ∀ b ∈ bytes, b ≠ 0x3b ∧ b ≠ 0x28 ∧ b ≠ 0x22 ∧ b ≠ 0x29) (rest : List UInt8) :
    scan .text place depth start (bytes ++ rest) =
      scan .text (place + bytes.length) depth start rest := by
  induction bytes generalizing place with
  | nil => rfl
  | cons b bytes ih =>
    obtain ⟨hs, ho, hq, hc⟩ := h b List.mem_cons_self
    have hstep : scan .text place depth start (b :: (bytes ++ rest)) =
        scan .text (place + 1) depth start (bytes ++ rest) := by simp [scan, hs, ho, hq, hc]
    rw [List.cons_append, hstep, ih fun b hb => h b (List.mem_cons_of_mem _ hb), List.length_cons,
      Nat.add_assoc, Nat.add_comm 1]

theorem scan_in_line {bytes : List UInt8} (h : 0x0a ∉ bytes) (rest : List UInt8) :
    scan .line place depth start (bytes ++ rest) =
      scan .line (place + bytes.length) depth start rest := by
  induction bytes generalizing place with
  | nil => rfl
  | cons b bytes ih =>
    rw [List.mem_cons, not_or] at h
    rw [List.cons_append, scan, if_neg (Ne.symm h.1), ih h.2, List.length_cons, Nat.add_assoc,
      Nat.add_comm 1]

/-- In a block comment, so are those that are of no mark there. -/
theorem scan_in_block {bytes : List UInt8} (h : ∀ b ∈ bytes, b ≠ 0x3b ∧ b ≠ 0x28) (n : Nat)
    (rest : List UInt8) :
    scan (.block n) place depth start (bytes ++ rest) =
      scan (.block n) (place + bytes.length) depth start rest := by
  induction bytes generalizing place with
  | nil => rfl
  | cons b bytes ih =>
    obtain ⟨hs, ho⟩ := h b List.mem_cons_self
    have hstep : scan (.block n) place depth start (b :: (bytes ++ rest)) =
        scan (.block n) (place + 1) depth start (bytes ++ rest) := by simp [scan, hs, ho]
    rw [List.cons_append, hstep, ih fun b hb => h b (List.mem_cons_of_mem _ hb), List.length_cons,
      Nat.add_assoc, Nat.add_comm 1]

theorem scan_opening_in_block {n : Nat} {rest : List UInt8} (h : rest.head? ≠ some 0x3b) :
    scan (.block n) place depth start (0x28 :: rest) =
      scan (.block n) (place + 1) depth start rest := by
  simp [scan, h]

theorem scan_semicolon_in_block {n : Nat} {rest : List UInt8} (h : rest.head? ≠ some 0x29) :
    scan (.block n) place depth start (0x3b :: rest) =
      scan (.block n) (place + 1) depth start rest := by
  simp [scan, h]

theorem scan_nested {n : Nat} {body : List Char} (h : Wasm.Text.Token.BlockBody n body)
    (rest : List UInt8) :
    scan (.block n) place depth start (body.flatMap utf8EncodeChar ++ rest) =
      scan .text (place + bytesOf body) depth start rest := by
  induction h generalizing place with
  | last => rfl
  | @opening n body _ ih =>
    have hopen : scan (.block (n + 1)) place depth start
          (('(' :: ';' :: body).flatMap utf8EncodeChar ++ rest) =
        scan (.block (n + 2)) (place + 2) depth start (body.flatMap utf8EncodeChar ++ rest) := by
      rfl
    rw [hopen, ih, bytesOf_cons, bytesOf_cons, ← Nat.add_assoc,
      ← Nat.add_assoc]
    rfl
  | @closing n body _ ih =>
    have hclose : scan (.block (n + 2)) place depth start
          ((';' :: ')' :: body).flatMap utf8EncodeChar ++ rest) =
        scan (.block (n + 1)) (place + 2) depth start (body.flatMap utf8EncodeChar ++ rest) := by
      rfl
    rw [hclose, ih, bytesOf_cons, bytesOf_cons, ← Nat.add_assoc,
      ← Nat.add_assoc]
    rfl
  | @other n c body ho hc hb ih =>
    have hchar : scan (.block n) place depth start
          (utf8EncodeChar c ++ (body.flatMap utf8EncodeChar ++ rest)) =
        scan (.block n) (place + c.utf8Size) depth start
          (body.flatMap utf8EncodeChar ++ rest) := by
      have hhead {d : Char} (hd : d.utf8Size = 1) (hne : body.head? ≠ some d) :
          (body.flatMap utf8EncodeChar ++ rest).head? ≠ some d.toUInt8 := by
        obtain ⟨x, xs, hxs⟩ := List.exists_cons_of_ne_nil (flatMap_ne_nil hb.ne_nil)
        have := head?_flatMap_utf8EncodeChar hd hne
        rw [hxs] at this ⊢
        exact this
      by_cases hopen : c = '('
      · subst hopen
        have hno : (body.flatMap utf8EncodeChar ++ rest).head? ≠ some 0x3b :=
          hhead (d := ';') rfl fun he => ho ⟨rfl, he⟩
        exact scan_opening_in_block hno
      by_cases hclose : c = ';'
      · subst hclose
        have hno : (body.flatMap utf8EncodeChar ++ rest).head? ≠ some 0x29 :=
          hhead (d := ')') rfl fun he => hc ⟨rfl, he⟩
        exact scan_semicolon_in_block hno
      · rw [scan_in_block, String.length_utf8EncodeChar]
        exact fun b hb => ⟨byte_ne (d := ';') rfl hclose hb, byte_ne (d := '(') rfl hopen hb⟩
    rw [List.flatMap_cons, List.append_assoc, hchar, ih, bytesOf_cons,
      Nat.add_assoc]

theorem quotedBody_of_plain {cs : List Char} {bytes : List UInt8} (hcs : ∀ c ∈ cs, IsPlain c)
    (hb : QuotedBody bytes) : QuotedBody (cs.flatMap utf8EncodeChar ++ bytes) := by
  have hbytes : ∀ b ∈ cs.flatMap utf8EncodeChar, b ≠ 0x22 ∧ b ≠ 0x5c := by
    intro b hb
    obtain ⟨c, hc, hbc⟩ := List.mem_flatMap.1 hb
    obtain ⟨hq, he⟩ := hcs c hc
    exact ⟨byte_ne (d := '"') rfl hq hbc, byte_ne (d := '\\') rfl he hbc⟩
  generalize cs.flatMap utf8EncodeChar = ds at hbytes ⊢
  induction ds with
  | nil => exact hb
  | cons d ds ih =>
    obtain ⟨hd, hds⟩ := List.forall_mem_cons.1 hbytes
    exact .byte hd.1 hd.2 (ih hds)

theorem quotedBody_flatMap {body : List Char} {content : List UInt8}
    (h : Wasm.Text.Token.QuotedBody body content) : QuotedBody (body.flatMap utf8EncodeChar) := by
  induction h with
  | close => exact .close
  | @escape text rest _ _ he _ ih =>
    obtain ⟨c, more, rfl, hc, hmore⟩ := he.shape
    rw [List.flatMap_cons, List.cons_append, List.flatMap_cons, List.flatMap_append,
      String.utf8EncodeChar_eq_singleton hc]
    exact .escape _ (quotedBody_of_plain hmore ih)
  | @char c rest _ hp _ _ _ ih =>
    have := quotedBody_of_plain (List.forall_mem_singleton.2 hp) ih
    rwa [← List.flatMap_append] at this

theorem scan_bytes {body : List Char} {content : List UInt8}
    (h : Wasm.Text.Token.QuotedBody body content) (rest : List UInt8) :
    scan .text place depth start (('"' :: body).flatMap utf8EncodeChar ++ rest) =
      scan .text (place + bytesOf ('"' :: body)) depth start rest := by
  have hopen : scan .text place depth start (('"' :: body).flatMap utf8EncodeChar ++ rest) =
      scan .quoted (place + 1) depth start (body.flatMap utf8EncodeChar ++ rest) := rfl
  rw [hopen, scan_quoted (quotedBody_flatMap h), length_flatMap_utf8EncodeChar,
    bytesOf_cons, ← Nat.add_assoc]
  rfl

theorem scan_run {run : List Char} (h : ∀ c ∈ run, isWordChar c = true)
    (rest : List UInt8) :
    scan .text place depth start (run.flatMap utf8EncodeChar ++ rest) =
      scan .text (place + bytesOf run) depth start rest := by
  rw [scan_plain ?_, length_flatMap_utf8EncodeChar]
  intro b hb
  obtain ⟨c, hc, hbc⟩ := List.mem_flatMap.1 hb
  obtain ⟨-, hs, ho, hclose, hq⟩ := Wasm.Text.Token.not_special_of_isWordChar (h c hc)
  exact ⟨byte_ne (d := ';') rfl hs hbc, byte_ne (d := '(') rfl ho hbc,
    byte_ne (d := '"') rfl hq hbc, byte_ne (d := ')') rfl hclose hbc⟩

/-- A sign that is reserved only is of note with another one. -/
theorem scan_sign {c : Char} (hc : isReserved c = true) {after : List Char}
    (hn : ¬ (c = ';' ∧ after.head? = some ';')) :
    scan .text place depth start (([c] ++ after).flatMap utf8EncodeChar) =
      scan .text (place + bytesOf [c]) depth start (after.flatMap utf8EncodeChar) := by
  have hchars : c = ';' ∨ c = ',' ∨ c = '[' ∨ c = ']' ∨ c = '\x7b' ∨ c = '\x7d' := by
    simpa [isReserved] using hc
  rw [List.flatMap_append]
  rcases hchars with rfl | rfl | rfl | rfl | rfl | rfl
  · have hhead : (after.flatMap utf8EncodeChar).head? ≠ some 0x3b :=
      head?_flatMap_utf8EncodeChar (d := ';') rfl fun he => hn ⟨rfl, he⟩
    have hstep : scan .text place depth start (0x3b :: after.flatMap utf8EncodeChar) =
        scan .text (place + 1) depth start (after.flatMap utf8EncodeChar) := by
      simp [scan, hhead]
    exact hstep
  all_goals exact scan_plain (List.forall_mem_singleton.2 (by decide)) _

/-- Whatever is no parenthesis is passed over. -/
theorem scan_piece {text after : List Char} {t : Option Wasm.Text.Token}
    (h : Piece text t after.head?) (ho : t ≠ some .opening) (hc : t ≠ some .closing)
    (hl : NoLoneReturn (text ++ after)) :
    scan .text place depth start ((text ++ after).flatMap utf8EncodeChar) =
      scan .text (place + bytesOf text) depth start (after.flatMap utf8EncodeChar) := by
  rw [List.flatMap_append]
  cases h with
  | opening _ => exact absurd rfl ho
  | closing => exact absurd rfl hc
  | blank h =>
    rcases h with rfl | rfl | rfl | rfl <;>
      exact scan_plain (List.forall_mem_singleton.2 (by decide)) _
  | @line body _ hb _ hn =>
    have hbody : (0x0a : UInt8) ∉ (';' :: body).flatMap utf8EncodeChar := by
      intro hmem
      obtain ⟨c, hc, hbc⟩ := List.mem_flatMap.1 hmem
      refine byte_ne (c := c) (d := '\n') rfl ?_ hbc rfl
      rcases List.mem_cons.1 hc with rfl | hc
      · decide
      · exact (hb c hc).1
    have hopen : scan .text place depth start
          ((';' :: ';' :: body).flatMap utf8EncodeChar ++ after.flatMap utf8EncodeChar) =
        scan .line (place + 1) depth start
          ((';' :: body).flatMap utf8EncodeChar ++ after.flatMap utf8EncodeChar) := rfl
    have hsize : place + 1 + bytesOf (';' :: body) = place + bytesOf (';' :: ';' :: body) := by
      rw [bytesOf_cons ';' (_ :: _), ← Nat.add_assoc]
      rfl
    rw [hopen, scan_in_line hbody, length_flatMap_utf8EncodeChar, hsize]
    -- behind a carriage return there is a line feed, so that the comment ends for the search too
    cases after with
    | nil => rfl
    | cons c rest =>
      rcases hn c rfl with rfl | rfl
      · rfl
      · obtain hmem | hnext := hl [] body rest rfl
        · exact absurd rfl (hb _ hmem).1
        · obtain ⟨tail, rfl⟩ := List.head?_eq_some_iff.1 hnext
          rfl
  | @block body _ hb _ =>
    have hopen : scan .text place depth start
          (('(' :: ';' :: body).flatMap utf8EncodeChar ++ after.flatMap utf8EncodeChar) =
        scan (.block 1) (place + 2) depth start
          (body.flatMap utf8EncodeChar ++ after.flatMap utf8EncodeChar) := rfl
    rw [hopen, scan_nested hb, bytesOf_cons, bytesOf_cons,
      ← Nat.add_assoc, ← Nat.add_assoc]
    rfl
  | bytes hb _ | gluedBytes hb _ => exact scan_bytes hb _
  | word _ hr _ | gluedWord _ hr _ => exact scan_run hr _
  | sign hsign hn =>
    rw [← List.flatMap_append]
    exact scan_sign hsign hn

end ScriptHost.ModuleForm

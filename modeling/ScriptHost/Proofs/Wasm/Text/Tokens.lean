import ScriptHost.Proofs.Text.Pieces
import ScriptHost.Proofs.Text.Utf8
import ScriptHost.Wasm.Text.Token

/-!
# Reading tokens

A text is read from left to right into blanks, comments and tokens (`Piece`), each of which depends
on what follows it only by the next character. Where the text is read to its end, the tokens are
those of its pieces (`read_of_scan`, `scan_of_read`).
-/

namespace ScriptHost.Wasm.Text.Token

/-! ## Bytes of characters -/

theorem bytesOf_append_foldl (n : Nat) (cs : List Char) :
    cs.foldl (fun n c => n + c.utf8Size) n = n + bytesOf cs := by
  induction cs generalizing n with
  | nil => rfl
  | cons c rest ih =>
    rw [bytesOf, List.foldl_cons, List.foldl_cons, ih, ih, Nat.zero_add, Nat.add_assoc]

@[simp]
theorem bytesOf_nil : bytesOf [] = 0 := rfl

@[simp]
theorem bytesOf_cons (c : Char) (cs : List Char) : bytesOf (c :: cs) = c.utf8Size + bytesOf cs := by
  rw [bytesOf, List.foldl_cons, bytesOf_append_foldl, Nat.zero_add]

@[simp]
theorem bytesOf_append (cs ds : List Char) : bytesOf (cs ++ ds) = bytesOf cs + bytesOf ds := by
  induction cs with
  | nil => simp
  | cons c cs ih => simp [ih, Nat.add_assoc]

theorem bytesOf_ascii {cs : List Char} (h : ∀ c ∈ cs, c.utf8Size = 1) : bytesOf cs = cs.length := by
  induction cs with
  | nil => rfl
  | cons c cs ih =>
    rw [bytesOf_cons, h c List.mem_cons_self, ih fun d hd => h d (List.mem_cons_of_mem _ hd),
      List.length_cons, Nat.add_comm]

theorem length_flatMap_utf8EncodeChar (cs : List Char) :
    (cs.flatMap String.utf8EncodeChar).length = bytesOf cs := by
  induction cs with
  | nil => rfl
  | cons c cs ih => simp [ih]

/-- What begins a text is told by its number of bytes. -/
theorem append_inj_of_bytesOf {a b c d : List Char} (h : a ++ b = c ++ d)
    (hsize : bytesOf a = bytesOf c) : a = c ∧ b = d := by
  induction a generalizing c with
  | nil =>
    cases c with
    | nil => exact ⟨rfl, h⟩
    | cons x c =>
      have := x.utf8Size_pos
      simp only [bytesOf_nil, bytesOf_cons] at hsize
      omega
  | cons x a ih =>
    cases c with
    | nil =>
      have := x.utf8Size_pos
      simp only [bytesOf_nil, bytesOf_cons] at hsize
      omega
    | cons y c =>
      obtain ⟨rfl, htail⟩ := List.cons.inj h
      simp only [bytesOf_cons, Nat.add_left_cancel_iff] at hsize
      obtain ⟨rfl, rfl⟩ := ih htail hsize
      exact ⟨rfl, rfl⟩

theorem utf8Size_of_isWordChar {c : Char} (h : isWordChar c = true) : c.utf8Size = 1 := by
  rw [isWordChar, Bool.or_eq_true] at h
  rcases h with h | h
  · rw [Char.utf8Size_eq_one_iff, UInt32.le_iff_toNat_le]
    delta Char.isAlphanum Char.isAlpha Char.isUpper Char.isLower Char.isDigit at h
    simp only [Bool.or_eq_true, Bool.and_eq_true, decide_eq_true_eq, UInt32.le_iff_toNat_le] at h
    simp only [Char.reduceVal, UInt32.reduceToNat] at h ⊢
    omega
  · have hall : "!#$%&'*+-./:<=>?@\\^_\x60|~".toList.all (fun d => d.utf8Size == 1) = true := rfl
    exact beq_iff_eq.1 (List.all_eq_true.1 hall c (List.contains_iff_mem.1 h))

theorem hidden?_eq_none_iff (place : Nat) (cs : List Char) :
    hidden? place cs = none ↔ ∀ c ∈ cs, isConfusing c = false := by
  induction cs generalizing place with
  | nil => simp [hidden?]
  | cons c rest ih =>
    rw [hidden?]
    split
    · rename_i h
      simp [h]
    · rename_i h
      simp [ih, h]

/-! ## Block comments -/

/-- A block comment of some depth behind its mark. -/
inductive BlockBody : Nat → List Char → Prop
  | last : BlockBody 1 [';', ')']
  | opening {n : Nat} {rest : List Char} (h : BlockBody (n + 2) rest) :
    BlockBody (n + 1) ('(' :: ';' :: rest)
  | closing {n : Nat} {rest : List Char} (h : BlockBody (n + 1) rest) :
    BlockBody (n + 2) (';' :: ')' :: rest)
  | other {n : Nat} {c : Char} {rest : List Char} (ho : ¬ (c = '(' ∧ rest.head? = some ';'))
    (hc : ¬ (c = ';' ∧ rest.head? = some ')')) (h : BlockBody n rest) : BlockBody n (c :: rest)

theorem BlockBody.ne_nil {n : Nat} {body : List Char} (h : BlockBody n body) : body ≠ [] := by
  cases h <;> exact List.cons_ne_nil _ _

theorem blockComment_sound {done text after : List Char} {n : Nat} {cs : List Char}
    (h : blockComment done (n + 1) cs = some (text, after)) :
    ∃ body, cs = body ++ after ∧ text = body.reverse ++ done ∧ BlockBody (n + 1) body := by
  generalize hn : n + 1 = m at h
  fun_induction blockComment done m cs generalizing n with
  | case1 => exact absurd h (by simp)
  | case2 done depth rest ih =>
    subst hn
    obtain ⟨body, rfl, rfl, hb⟩ := ih rfl h
    exact ⟨_, rfl, by simp, .opening hb⟩
  | case3 done depth rest hd =>
    obtain rfl : n = 0 := by omega
    subst hn
    simp only [Option.some.injEq, Prod.mk.injEq] at h
    obtain ⟨rfl, rfl⟩ := h
    exact ⟨_, rfl, rfl, .last⟩
  | case4 done depth rest hd ih =>
    obtain ⟨n, rfl⟩ : ∃ k, n = k + 1 := ⟨n - 1, by omega⟩
    subst hn
    obtain ⟨body, rfl, rfl, hb⟩ := ih rfl h
    exact ⟨_, rfl, by simp, .closing hb⟩
  | case5 done depth c rest ho hc ih =>
    obtain ⟨body, rfl, rfl, hb⟩ := ih hn h
    refine ⟨c :: body, rfl, by simp, .other ?_ ?_ hb⟩
    · rintro ⟨rfl, hhead⟩
      obtain ⟨tail, rfl⟩ := List.head?_eq_some_iff.1 hhead
      exact ho _ rfl rfl
    · rintro ⟨rfl, hhead⟩
      obtain ⟨tail, rfl⟩ := List.head?_eq_some_iff.1 hhead
      exact hc _ rfl rfl

theorem blockComment_complete {n : Nat} {body : List Char} (h : BlockBody n body)
    (done after : List Char) :
    blockComment done n (body ++ after) = some (body.reverse ++ done, after) := by
  induction h generalizing done with
  | last => rfl
  | opening _ ih => simp [blockComment, ih]
  | closing _ ih => simp [blockComment, ih]
  | @other n c rest ho hc h ih =>
    obtain ⟨d, tail, rfl⟩ := List.exists_cons_of_ne_nil h.ne_nil
    rw [List.cons_append, blockComment, ih]
    · simp
    · intro rest' hcopen hrest
      rw [List.cons_append] at hrest
      exact ho ⟨hcopen, congrArg some (List.cons.inj hrest).1⟩
    · intro rest' hcclose hrest
      rw [List.cons_append] at hrest
      exact hc ⟨hcclose, congrArg some (List.cons.inj hrest).1⟩

/-! ## Strings -/

/-- Characters that neither end a string nor escape anything in it. -/
def IsPlain (c : Char) : Prop := c ≠ '"' ∧ c ≠ '\\'

theorem isPlain_of_hexValue? {c : Char} {d : Nat} (h : Text.hexValue? c = some d) : IsPlain c := by
  constructor <;> rintro rfl <;> simp [Text.hexValue?, Char.isDigit] at h

theorem utf8Size_of_hexValue? {c : Char} {d : Nat} (h : Text.hexValue? c = some d) :
    c.utf8Size = 1 := by
  refine Decidable.byContradiction fun hne => ?_
  rw [Char.utf8Size_eq_one_iff, UInt32.le_iff_toNat_le] at hne
  have hno : Text.hexValue? c = none := by
    simp only [Text.hexValue?, Char.isDigit, Char.le_def, Bool.and_eq_true, decide_eq_true_eq,
      UInt32.le_iff_toNat_le, Char.reduceVal, UInt32.reduceToNat] at hne ⊢
    rw [if_neg (by omega), if_neg (by omega), if_neg (by omega)]
  rw [hno] at h
  cases h

theorem hexNumber_sound {value n : Nat} {isFirst afterMark : Bool} {cs after : List Char}
    (h : hexNumber value isFirst afterMark cs = .ok (n, after)) :
    ∃ digits, cs = digits ++ after ∧ (∀ c ∈ digits, IsPlain c) ∧
      ∀ rest, hexNumber value isFirst afterMark (digits ++ '\x7d' :: rest) =
        .ok (n, '\x7d' :: rest) := by
  fun_induction hexNumber value isFirst afterMark cs with
  | case1 | case3 | case4 | case6 => cases h
  | case2 value isFirst afterMark c cs d hd hsize ih =>
    obtain ⟨digits, rfl, hplain, hread⟩ := ih h
    refine ⟨c :: digits, rfl, List.forall_mem_cons.2 ⟨isPlain_of_hexValue? hd, hplain⟩, ?_⟩
    intro rest
    rw [List.cons_append, hexNumber, hd]
    simp only [hsize, if_true]
    exact hread rest
  | case5 value isFirst afterMark cs hfirst hmark ih =>
    obtain ⟨digits, rfl, hplain, hread⟩ := ih h
    refine ⟨'_' :: digits, rfl, List.forall_mem_cons.2 ⟨⟨by decide, by decide⟩, hplain⟩, ?_⟩
    intro rest
    rw [List.cons_append, hexNumber, hmark]
    simp only [hfirst, if_true]
    exact hread rest
  | case7 value isFirst afterMark c cs hc hfirst hmark hafter =>
    simp only [Except.ok.injEq, Prod.mk.injEq] at h
    obtain ⟨rfl, rfl⟩ := h
    refine ⟨[], rfl, by simp, fun rest => ?_⟩
    have hbrace : Text.hexValue? '\x7d' = none := by decide
    simp [hexNumber, hbrace, hfirst, hafter]

/-- What stands behind a backslash for some bytes: a character of ASCII that may be a quote or a
backslash, and others that are not. -/
structure Escape (text : List Char) (content : List UInt8) : Prop where
  read (rest : List Char) : escape (text ++ rest) = .ok (content, rest)
  shape : ∃ c more, text = c :: more ∧ c.utf8Size = 1 ∧ ∀ d ∈ more, IsPlain d

theorem escape_sound {cs after : List Char} {content : List UInt8}
    (h : escape cs = .ok (content, after)) : ∃ text, cs = text ++ after ∧ Escape text content := by
  have hsingle {c : Char} {rest : List Char} (hc : c.utf8Size = 1)
      (hread : ∀ rest, escape (c :: rest) = .ok (content, rest)) :
      ∃ text, c :: rest = text ++ rest ∧ Escape text content :=
    ⟨[c], rfl, hread, c, [], rfl, hc, by simp⟩
  revert h
  fun_cases escape cs with
  | case2 | case3 | case4 | case5 | case6 | case7 =>
    intro h
    simp only [Except.ok.injEq, Prod.mk.injEq] at h
    obtain ⟨rfl, rfl⟩ := h
    exact hsingle rfl fun _ => rfl
  | case10 rest n hn rest' hnumber =>
    intro h
    simp only [Except.ok.injEq, Prod.mk.injEq] at h
    obtain ⟨rfl, rfl⟩ := h
    obtain ⟨digits, rfl, hplain, hread⟩ := hexNumber_sound hnumber
    refine ⟨'u' :: '\x7b' :: (digits ++ ['\x7d']), by simp, fun rest => ?_, 'u', _, rfl, rfl, ?_⟩
    · simp [escape, hread, hn]
    · intro d hd
      simp only [List.mem_cons, List.mem_append, List.not_mem_nil, or_false] at hd
      rcases hd with rfl | hd | rfl
      · exact ⟨by decide, by decide⟩
      · exact hplain d hd
      · exact ⟨by decide, by decide⟩
  | case17 a ht hn hr hq ha hb hu x b rest hx d hd =>
    intro h
    simp only [Except.ok.injEq, Prod.mk.injEq] at h
    obtain ⟨rfl, rfl⟩ := h
    refine ⟨[a, b], rfl, fun rest => ?_, a, [b], rfl, ?_, ?_⟩
    · simp [escape, hx, hd]
    · exact utf8Size_of_hexValue? hx
    · simpa using isPlain_of_hexValue? hd
  | _ => exact fun h => by cases h

/-- A string behind its opening quote. -/
inductive QuotedBody : List Char → List UInt8 → Prop
  | close : QuotedBody ['"'] []
  | escape {text rest : List Char} {content content' : List UInt8} (he : Escape text content)
    (h : QuotedBody rest content') : QuotedBody ('\\' :: (text ++ rest)) (content ++ content')
  | char {c : Char} {rest : List Char} {content : List UInt8} (hp : IsPlain c)
    (hc : ¬ (c.toNat < 32 ∨ c.toNat = 127)) (hh : isConfusing c = false)
    (h : QuotedBody rest content) :
    QuotedBody (c :: rest) ((String.singleton c).toUTF8.toList ++ content)

theorem quoted_sound {fuel : Nat} {done content : List UInt8} {cs after : List Char}
    (h : quoted fuel done cs = .ok (content, after)) :
    ∃ body own, cs = body ++ after ∧ content = done.reverse ++ own ∧ QuotedBody body own := by
  fun_induction quoted fuel done cs with
  | case1 | case2 | case4 | case6 | case7 => cases h
  | case3 fuel done rest =>
    simp only [Except.ok.injEq, Prod.mk.injEq] at h
    obtain ⟨rfl, rfl⟩ := h
    exact ⟨['"'], [], rfl, by simp, .close⟩
  | case5 fuel done rest own rest' hescape ih =>
    obtain ⟨text, rfl, he⟩ := escape_sound hescape
    obtain ⟨body, own', rfl, rfl, hb⟩ := ih h
    exact ⟨_, _, by simp, by simp, .escape he hb⟩
  | case8 fuel done c rest hq hb hc hh ih =>
    obtain ⟨body, own, rfl, rfl, hbody⟩ := ih h
    exact ⟨_, _, rfl, by simp, .char ⟨hq, hb⟩ hc (by simpa using hh) hbody⟩

theorem quoted_complete {body : List Char} {own : List UInt8} (h : QuotedBody body own)
    {fuel : Nat} (hfuel : body.length ≤ fuel) (done : List UInt8) (after : List Char) :
    quoted fuel done (body ++ after) = .ok (done.reverse ++ own, after) := by
  induction h generalizing fuel done with
  | close =>
    obtain ⟨fuel, rfl⟩ := Nat.exists_eq_succ_of_ne_zero (Nat.ne_of_gt hfuel)
    simp [quoted]
  | @escape text rest content content' he _ ih =>
    obtain ⟨fuel, rfl⟩ := Nat.exists_eq_succ_of_ne_zero (Nat.ne_of_gt (Nat.zero_lt_of_lt hfuel))
    rw [List.length_cons, List.length_append] at hfuel
    rw [List.cons_append, List.append_assoc, quoted, he.read]
    simp only
    rw [ih (by omega)]
    simp
  | @char c rest content hp hc hh _ ih =>
    obtain ⟨fuel, rfl⟩ := Nat.exists_eq_succ_of_ne_zero (Nat.ne_of_gt (Nat.zero_lt_of_lt hfuel))
    rw [List.length_cons] at hfuel
    rw [List.cons_append, quoted]
    · simp only [hc, hh, if_false]
      rw [if_neg (by simp), ih (by omega)]
      simp
    · exact hp.1
    · exact hp.2

/-! ## Pieces -/

/-- Nothing follows that would be part of the same token. -/
def Ends (next : Option Char) : Prop := ∀ c ∈ next, isWordChar c = false ∧ c ≠ '"'

theorem goesOn_eq_false_iff (after : List Char) : goesOn after = false ↔ Ends after.head? := by
  cases after with
  | nil => simp [goesOn, Ends]
  | cons c rest => simp [goesOn, Ends]

/-- A part of a text that is read at once: a blank, a comment, a token or a part of a reserved one,
and the character that follows it. -/
inductive Piece : List Char → Option Token → Option Char → Prop
  | blank {c : Char} {next : Option Char} (h : c = ' ' ∨ c = '\n' ∨ c = '\r' ∨ c = '\t') :
    Piece [c] none next
  | line {body : List Char} {next : Option Char} (hb : ∀ c ∈ body, c ≠ '\n' ∧ c ≠ '\r')
    (hh : ∀ c ∈ body, isConfusing c = false) (hn : ∀ c ∈ next, c = '\n' ∨ c = '\r') :
    Piece (';' :: ';' :: body) none next
  | block {body : List Char} {next : Option Char} (hb : BlockBody 1 body)
    (hh : ∀ c ∈ body, isConfusing c = false) : Piece ('(' :: ';' :: body) none next
  | opening {next : Option Char} (hn : next ≠ some ';') : Piece ['('] (some .opening) next
  | closing {next : Option Char} : Piece [')'] (some .closing) next
  | bytes {body : List Char} {content : List UInt8} {next : Option Char}
    (hb : QuotedBody body content) (hn : Ends next) :
    Piece ('"' :: body) (some (.bytes content)) next
  | word {run : List Char} {next : Option Char} (hne : run ≠ [])
    (hr : ∀ c ∈ run, isWordChar c = true) (hn : Ends next) : Piece run (some (ofWord run)) next
  | sign {c : Char} {next : Option Char} (hc : isReserved c = true)
    (hn : ¬ (c = ';' ∧ next = some ';')) : Piece [c] (some .reserved) next
  | gluedBytes {body : List Char} {content : List UInt8} {next : Option Char}
    (hb : QuotedBody body content) (hn : ¬ Ends next) : Piece ('"' :: body) (some .reserved) next
  | gluedWord {run : List Char} {next : Option Char} (hne : run ≠ [])
    (hr : ∀ c ∈ run, isWordChar c = true) (hn : next = some '"') : Piece run (some .reserved) next

theorem Piece.ne_nil {text : List Char} {t : Option Token} {next : Option Char}
    (h : Piece text t next) : text ≠ [] := by
  cases h with
  | word hne _ _ | gluedWord hne _ _ => exact hne
  | _ => exact List.cons_ne_nil _ _

theorem ofWord_eq (run : List Char) :
    (∃ c rest, run = '$' :: c :: rest ∧ ofWord run = .name (String.ofList (c :: rest))) ∨
      ofWord run = .word run := by
  unfold ofWord
  split
  · exact .inl ⟨_, _, rfl, rfl⟩
  · exact .inr rfl

theorem ofWord_ne_reserved (run : List Char) : ofWord run ≠ .reserved := by
  rcases ofWord_eq run with ⟨_, _, -, h⟩ | h <;> rw [h] <;> exact Token.noConfusion

theorem Piece.of_opening {text : List Char} {next : Option Char}
    (h : Piece text (some .opening) next) : text = ['('] ∧ next ≠ some ';' := by
  generalize ht : some Token.opening = t at h
  cases h with
  | opening hn => exact ⟨rfl, hn⟩
  | word _ _ _ => rcases ofWord_eq text with ⟨_, _, -, h⟩ | h <;> rw [h] at ht <;> cases ht
  | _ => cases ht

theorem Piece.of_closing {text : List Char} {next : Option Char}
    (h : Piece text (some .closing) next) : text = [')'] := by
  generalize ht : some Token.closing = t at h
  cases h with
  | closing => rfl
  | word _ _ _ => rcases ofWord_eq text with ⟨_, _, -, h⟩ | h <;> rw [h] at ht <;> cases ht
  | _ => cases ht

theorem Piece.of_word {text w : List Char} {next : Option Char}
    (h : Piece text (some (.word w)) next) : text = w ∧ Ends next := by
  generalize ht : some (Token.word w) = t at h
  cases h with
  | word _ _ hn =>
    rcases ofWord_eq text with ⟨_, _, -, h⟩ | h <;> rw [h] at ht <;> cases ht
    exact ⟨rfl, hn⟩
  | _ => cases ht

theorem Piece.ne_finish {text : List Char} {t : Token} {next : Option Char}
    (h : Piece text (some t) next) : t ≠ .finish := by
  cases h with
  | word _ _ _ => unfold ofWord; split <;> exact Token.noConfusion
  | _ => exact Token.noConfusion

theorem Piece.fuel_left {text after : List Char} {t : Option Token} {fuel : Nat}
    (h : Piece text t after.head?) (hfuel : (text ++ after).length ≤ fuel) :
    ∃ k, fuel = k + 1 ∧ after.length ≤ k := by
  have := List.length_pos_iff.2 h.ne_nil
  rw [List.length_append] at hfuel
  exact ⟨fuel - 1, by omega, by omega⟩

/-- A text that is read to its end, from a place on. -/
inductive Read : Nat → List Char → List Placed → Prop
  | finish (place : Nat) : Read place [] [⟨.finish, place⟩]
  | skip {place : Nat} {text after : List Char} {ts : List Placed}
    (hp : Piece text none after.head?) (h : Read (place + bytesOf text) after ts) :
    Read place (text ++ after) ts
  | token {place : Nat} {text after : List Char} {t : Token} {ts : List Placed}
    (hp : Piece text (some t) after.head?) (h : Read (place + bytesOf text) after ts) :
    Read place (text ++ after) (⟨t, place⟩ :: ts)

theorem not_special_of_isWordChar {c : Char} (h : isWordChar c = true) :
    ¬ (c = ' ' ∨ c = '\n' ∨ c = '\r' ∨ c = '\t') ∧ c ≠ ';' ∧ c ≠ '(' ∧ c ≠ ')' ∧ c ≠ '"' := by
  refine ⟨?_, ?_, ?_, ?_, ?_⟩
  · rintro (rfl | rfl | rfl | rfl) <;> exact absurd h (by decide)
  all_goals rintro rfl; exact absurd h (by decide)

section Scan

variable (fuel place : Nat)

/-- What follows a comment, unless that hides what it says. -/
def behindComment (text after : List Char) : List Placed :=
  match hidden? place text with
  | some (there, d) => [⟨.broken (.confusing d), there⟩]
  | none => scan fuel (place + bytesOf text) after

theorem behindComment_eq {text : List Char} (h : ∀ c ∈ text, isConfusing c = false)
    (after : List Char) :
    behindComment fuel place text after = scan fuel (place + bytesOf text) after := by
  rw [behindComment, (hidden?_eq_none_iff place text).2 h]

theorem behindComment_stuck {text : List Char} (h : ¬ ∀ c ∈ text, isConfusing c = false)
    (after : List Char) :
    ∃ t p, behindComment fuel place text after = [⟨t, p⟩] ∧ t ≠ .finish := by
  rw [← hidden?_eq_none_iff place] at h
  obtain ⟨⟨p, d⟩, hpd⟩ := Option.ne_none_iff_exists'.1 h
  exact ⟨.broken (.confusing d), p, by rw [behindComment, hpd], Token.noConfusion⟩

theorem scan_line {body after : List Char} (hb : ∀ c ∈ body, c ≠ '\n' ∧ c ≠ '\r')
    (hn : ∀ c ∈ after.head?, c = '\n' ∨ c = '\r') :
    scan (fuel + 1) place (';' :: ';' :: body ++ after) =
      behindComment fuel place (';' :: ';' :: body) after := by
  have hnext : ∀ c ∈ after.head?, (c ≠ '\n' && c ≠ '\r') = false := by
    intro c hc
    rcases hn c hc with rfl | rfl <;> rfl
  have htext : ∀ c ∈ ';' :: ';' :: body, (c ≠ '\n' && c ≠ '\r') = true := by simpa using hb
  have hcut := Text.takeWhile_next htext hnext
  rw [List.cons_append, scan]
  simp only [← List.cons_append, hcut]
  simp only [behindComment]
  rfl

theorem scan_block {body : List Char} (hb : BlockBody 1 body) (after : List Char) :
    scan (fuel + 1) place ('(' :: ';' :: body ++ after) =
      behindComment fuel place ('(' :: ';' :: body) after := by
  have hread := blockComment_complete hb [';', '('] after
  rw [List.cons_append, List.cons_append, scan]
  simp only [List.head?_cons, List.tail_cons, hread, List.reverse_append, List.reverse_reverse,
    behindComment]
  rfl

theorem scan_quote (rest : List Char) :
    scan (fuel + 1) place ('"' :: rest) =
      match quoted (rest.length + 1) [] rest with
      | .ok (content, after) =>
        if goesOn after then [⟨.reserved, place⟩]
        else
          ⟨.bytes content, place⟩ :: scan fuel (place + 1 + bytesOf rest - bytesOf after) after
      | .error (r, after) => [⟨.broken r, place + 1 + bytesOf rest - bytesOf after⟩] := by
  rw [scan]
  rfl

theorem scan_word {c : Char} {run after : List Char} (hr : ∀ d ∈ c :: run, isWordChar d = true)
    (hn : ∀ d ∈ after.head?, isWordChar d = false) :
    scan (fuel + 1) place (c :: run ++ after) =
      if goesOn after then [⟨.reserved, place⟩]
      else ⟨ofWord (c :: run), place⟩ :: scan fuel (place + bytesOf (c :: run)) after := by
  have hcut := Text.takeWhile_next hr hn
  obtain ⟨hblank, hs, ho, hc, hq⟩ := not_special_of_isWordChar (hr c List.mem_cons_self)
  rw [List.cons_append, scan, bytesOf_ascii fun d hd => utf8Size_of_isWordChar (hr d hd)]
  simp only [← List.cons_append, hcut]
  simp [hblank, hs, ho, hc, hq, hr]

theorem scan_bytes {body : List Char} {content : List UInt8} (hb : QuotedBody body content)
    (after : List Char) :
    scan (fuel + 1) place ('"' :: body ++ after) =
      if goesOn after then [⟨.reserved, place⟩]
      else ⟨.bytes content, place⟩ :: scan fuel (place + bytesOf ('"' :: body)) after := by
  have hfuel : body.length ≤ (body ++ after).length + 1 := by
    rw [List.length_append]
    omega
  have hread := quoted_complete hb hfuel [] after
  have hplace : place + 1 + bytesOf (body ++ after) - bytesOf after =
      place + bytesOf ('"' :: body) := by
    rw [bytesOf_append, bytesOf_cons, show '"'.utf8Size = 1 from rfl]
    omega
  rw [List.cons_append, scan_quote, hread]
  simp only [hplace, List.reverse_nil, List.nil_append]

theorem scan_piece {text after : List Char} {t : Option Token} (h : Piece text t after.head?)
    (hr : t ≠ some .reserved) :
    scan (fuel + 1) place (text ++ after) =
      (t.map (⟨·, place⟩)).toList ++ scan fuel (place + bytesOf text) after := by
  cases h with
  | @blank c _ h =>
    have hsize : c.utf8Size = 1 := by rcases h with rfl | rfl | rfl | rfl <;> rfl
    simp [scan, h, hsize]
  | line hb hh hn =>
    rw [scan_line fuel place hb hn, behindComment_eq _ _ (by simpa [isConfusing] using hh)]
    rfl
  | block hb hh =>
    rw [scan_block fuel place hb, behindComment_eq _ _ (by simpa [isConfusing] using hh)]
    rfl
  | opening hn => simp [scan, hn, show '('.utf8Size = 1 from rfl]
  | closing => simp [scan, show ')'.utf8Size = 1 from rfl]
  | bytes hb hn =>
    rw [scan_bytes fuel place hb, (goesOn_eq_false_iff after).2 hn]
    rfl
  | word hne hrun hn =>
    obtain ⟨c, run, rfl⟩ := List.exists_cons_of_ne_nil hne
    rw [scan_word fuel place hrun fun d hd => (hn d hd).1, (goesOn_eq_false_iff after).2 hn]
    rfl
  | sign _ _ | gluedBytes _ _ | gluedWord _ _ _ => exact absurd rfl hr

/-- Nothing is read behind the first part of a reserved token. -/
theorem scan_reserved {text after : List Char} (h : Piece text (some .reserved) after.head?) :
    scan (fuel + 1) place (text ++ after) = [⟨.reserved, place⟩] := by
  generalize ht : some Token.reserved = t at h
  cases h with
  | word _ _ _ => exact absurd (Option.some.inj ht).symm (ofWord_ne_reserved text)
  | @sign c _ hc hn =>
    have hchars : c = ';' ∨ c = ',' ∨ c = '[' ∨ c = ']' ∨ c = '\x7b' ∨ c = '\x7d' := by
      simpa [isReserved] using hc
    have hother : ¬ (c = ' ' ∨ c = '\n' ∨ c = '\r' ∨ c = '\t') ∧ c ≠ '(' ∧ c ≠ ')' ∧ c ≠ '"' ∧
        isWordChar c = false := by
      rcases hchars with rfl | rfl | rfl | rfl | rfl | rfl <;> decide
    obtain ⟨hblank, ho, hclose, hq, hw⟩ := hother
    simp [scan, hc, hn, hblank, ho, hclose, hq, hw]
  | gluedBytes hb hn =>
    have hgo : goesOn after = true := by
      rwa [← goesOn_eq_false_iff, Bool.not_eq_false] at hn
    rw [scan_bytes fuel place hb, hgo, if_pos rfl]
  | gluedWord hne hr hn =>
    obtain ⟨c, run, rfl⟩ := List.exists_cons_of_ne_nil hne
    obtain ⟨rest, rfl⟩ := List.head?_eq_some_iff.1 hn
    have hquote : ∀ d ∈ ('"' :: rest).head?, isWordChar d = false := by
      rintro d ⟨⟩
      rfl
    rw [scan_word fuel place hr hquote]
    rfl
  | _ => cases ht

end Scan

/-- What a text begins with is read at once, or it is no token or reserved, and then nothing more
is read. -/
def PieceOrStuck (cs : List Char) : Prop :=
  (∃ text t after, cs = text ++ after ∧ Piece text t after.head?) ∨
    ∀ fuel place, ∃ t p, scan (fuel + 1) place cs = [⟨t, p⟩] ∧ t ≠ .finish

theorem line_or_stuck (rest : List Char) : PieceOrStuck (';' :: ';' :: rest) := by
  obtain ⟨body, after, rfl, hb, hn⟩ := Text.exists_takeWhile (fun d => d ≠ '\n' && d ≠ '\r') rest
  have hb : ∀ c ∈ body, c ≠ '\n' ∧ c ≠ '\r' := by simpa using hb
  have hn : ∀ c ∈ after.head?, c = '\n' ∨ c = '\r' := by
    intro c hc
    have := hn c hc
    simpa only [Bool.and_eq_false_iff, decide_eq_false_iff_not, Decidable.not_not, Ne] using this
  by_cases hh : ∀ d ∈ body, isConfusing d = false
  · exact .inl ⟨';' :: ';' :: body, none, after, rfl, .line hb hh hn⟩
  · refine .inr fun fuel place => ?_
    have hhidden : ¬ ∀ d ∈ ';' :: ';' :: body, isConfusing d = false := by
      simpa [isConfusing] using hh
    obtain ⟨t, p, hscan, ht⟩ := behindComment_stuck fuel place hhidden after
    exact ⟨t, p, (scan_line fuel place hb hn).trans hscan, ht⟩

theorem block_or_stuck (rest : List Char) : PieceOrStuck ('(' :: ';' :: rest) := by
  cases hread : blockComment [';', '('] 1 rest with
  | none =>
    exact .inr fun _ place =>
      ⟨.broken .openComment, place, by simp [scan, hread], Token.noConfusion⟩
  | some found =>
    obtain ⟨text, after⟩ := found
    obtain ⟨body, rfl, rfl, hb⟩ := blockComment_sound hread
    by_cases hh : ∀ d ∈ body, isConfusing d = false
    · exact .inl ⟨_, none, after, rfl, .block hb hh⟩
    · refine .inr fun fuel place => ?_
      have hhidden : ¬ ∀ d ∈ '(' :: ';' :: body, isConfusing d = false := by
        simpa [isConfusing] using hh
      obtain ⟨t, p, hscan, ht⟩ := behindComment_stuck fuel place hhidden after
      exact ⟨t, p, (scan_block fuel place hb after).trans hscan, ht⟩

theorem bytes_or_stuck (rest : List Char) : PieceOrStuck ('"' :: rest) := by
  cases hread : quoted (rest.length + 1) [] rest with
  | error e =>
    exact .inr fun _ place =>
      ⟨.broken e.1, _, by rw [scan_quote, hread], Token.noConfusion⟩
  | ok found =>
    obtain ⟨content, after⟩ := found
    cases hgo : goesOn after with
    | true =>
      exact .inr fun _ place =>
        ⟨.reserved, place, by simp only [scan_quote, hread, hgo, if_true], Token.noConfusion⟩
    | false =>
      obtain ⟨body, own, rfl, rfl, hb⟩ := quoted_sound hread
      exact .inl ⟨_, _, after, rfl, .bytes hb ((goesOn_eq_false_iff after).1 hgo)⟩

theorem word_or_stuck {c : Char} (hw : isWordChar c = true) (rest : List Char) :
    PieceOrStuck (c :: rest) := by
  obtain ⟨run, after, rfl, hr, hn⟩ := Text.exists_takeWhile isWordChar rest
  have hrun : ∀ d ∈ c :: run, isWordChar d = true := List.forall_mem_cons.2 ⟨hw, hr⟩
  cases hgo : goesOn after with
  | true =>
    refine .inr fun fuel place => ⟨.reserved, place, ?_, Token.noConfusion⟩
    rw [← List.cons_append, scan_word fuel place hrun hn, hgo, if_pos rfl]
  | false =>
    exact .inl ⟨c :: run, _, after, rfl, .word (List.cons_ne_nil _ _) hrun
      ((goesOn_eq_false_iff after).1 hgo)⟩

theorem piece_or_stuck (c : Char) (rest : List Char) : PieceOrStuck (c :: rest) := by
  by_cases hblank : c = ' ' ∨ c = '\n' ∨ c = '\r' ∨ c = '\t'
  · exact .inl ⟨[c], none, rest, rfl, .blank hblank⟩
  by_cases hline : c = ';' ∧ rest.head? = some ';'
  · obtain ⟨rfl, hsecond⟩ := hline
    obtain ⟨rest, rfl⟩ := List.head?_eq_some_iff.1 hsecond
    exact line_or_stuck rest
  by_cases ho : c = '('
  · subst ho
    by_cases hcomment : rest.head? = some ';'
    · obtain ⟨rest, rfl⟩ := List.head?_eq_some_iff.1 hcomment
      exact block_or_stuck rest
    · exact .inl ⟨_, _, rest, rfl, .opening hcomment⟩
  by_cases hc : c = ')'
  · exact .inl ⟨_, _, rest, by rw [hc]; rfl, .closing⟩
  by_cases hq : c = '"'
  · subst hq
    exact bytes_or_stuck rest
  by_cases hw : isWordChar c = true
  · exact word_or_stuck hw rest
  · refine .inr fun fuel place => ?_
    by_cases hr : isReserved c = true
    · exact ⟨.reserved, place, by simp [scan, hblank, hline, ho, hc, hq, hw, hr], by simp⟩
    · exact ⟨.broken (.unexpectedCharacter c), place,
        by simp [scan, hblank, hline, ho, hc, hq, hw, hr], by simp⟩

/-- The tokens up to the first reserved one. -/
def upToReserved : List Placed → List Placed
  | [] => []
  | t :: ts => if t.token = .reserved then [t] else t :: upToReserved ts

theorem upToReserved_cons {t : Token} (ht : t ≠ .reserved) (place : Nat) (ts : List Placed) :
    upToReserved (⟨t, place⟩ :: ts) = ⟨t, place⟩ :: upToReserved ts := by
  rw [upToReserved, if_neg ht]

theorem upToReserved_reserved (place : Nat) (ts : List Placed) :
    upToReserved (⟨.reserved, place⟩ :: ts) = [⟨.reserved, place⟩] := by
  rw [upToReserved, if_pos rfl]

/-- The tokens of a text that can be read to its end. -/
theorem scan_of_read {place : Nat} {cs : List Char} {ts : List Placed} (h : Read place cs ts)
    {fuel : Nat} (hfuel : cs.length ≤ fuel) : scan fuel place cs = upToReserved ts := by
  induction h generalizing fuel with
  | finish place => exact scan_nil fuel place
  | skip hp _ ih =>
    obtain ⟨k, rfl, hk⟩ := hp.fuel_left hfuel
    rw [scan_piece _ _ hp nofun, ih hk]
    rfl
  | @token place text after t ts hp _ ih =>
    obtain ⟨k, rfl, hk⟩ := hp.fuel_left hfuel
    by_cases ht : t = .reserved
    · subst ht
      rw [scan_reserved _ _ hp, upToReserved_reserved]
    · rw [scan_piece _ _ hp (by simpa using ht), ih hk, upToReserved_cons ht]
      rfl

/-- A text in which there is nothing that is no token, and nothing that is reserved, is read to its
end. -/
theorem read_of_scan {fuel place : Nat} {cs : List Char} (hfuel : cs.length ≤ fuel)
    (hfinish : ∃ t ∈ scan fuel place cs, t.token = .finish) :
    Read place cs (scan fuel place cs) := by
  induction fuel generalizing place cs with
  | zero =>
    obtain rfl := List.length_eq_zero_iff.1 (Nat.le_zero.1 hfuel)
    exact .finish place
  | succ fuel ih =>
    cases cs with
    | nil => exact .finish place
    | cons c rest =>
      rcases piece_or_stuck c rest with ⟨text, t, after, hcut, hp⟩ | hstuck
      · have := List.length_pos_iff.2 hp.ne_nil
        rw [hcut, List.length_append] at hfuel
        have hr : t ≠ some .reserved := by
          rintro rfl
          rw [hcut, scan_reserved _ _ hp] at hfinish
          simp at hfinish
        rw [hcut, scan_piece _ _ hp hr] at hfinish ⊢
        cases t with
        | none => exact .skip hp (ih (by omega) hfinish)
        | some t =>
          refine .token hp (ih (by omega) ?_)
          obtain ⟨u, hu, hfin⟩ := hfinish
          rcases List.mem_cons.1 hu with rfl | hu
          · exact absurd hfin hp.ne_finish
          · exact ⟨u, hu, hfin⟩
      · obtain ⟨t, p, hscan, ht⟩ := hstuck fuel place
        obtain ⟨u, hu, hfin⟩ := hfinish
        rw [hscan, List.mem_singleton] at hu
        rw [hu] at hfin
        exact absurd hfin ht

end ScriptHost.Wasm.Text.Token

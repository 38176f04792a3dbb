import Mathlib.Data.List.TakeWhile
import ScriptHost.Proofs.ModuleForm.Token
import ScriptHost.Proofs.Text.Utf8

/-!
# The search for the first module form

The search reads a source token by token (`scan_token`), keeps the depth of its parentheses, and
ends at the first module form and nowhere else (`find?_eq_some_iff`). Since a form begins and ends
with a byte of ASCII, it can be cut out of a text (`find_first_form`).
-/

namespace ScriptHost.ModuleForm

variable {place depth : Nat} {start : Option Nat}

/-! ## One token -/

theorem startsModule_iff (bytes : List UInt8) : startsModule bytes = true ↔ ModuleWord bytes := by
  constructor
  · intro h
    unfold startsModule at h
    split at h
    · rename_i rest
      refine ⟨rest, rfl, ?_⟩
      cases rest with
      | nil => simp
      | cons b rest => simpa [isBlankByte, or_assoc] using h
    · exact absurd h Bool.false_ne_true
  · rintro ⟨after, rfl, h⟩
    cases after with
    | nil => rfl
    | cons b after => simpa [startsModule, isBlankByte, or_assoc] using h

theorem scan_line {body rest : List UInt8} (hb : 0x0a ∉ body) (hr : ∀ b ∈ rest.head?, b = 0x0a) :
    scan .line place depth start (body ++ rest) =
      scan .text (place + body.length) depth start rest := by
  induction body generalizing place with
  | nil =>
    cases rest with
    | nil => rfl
    | cons b rest =>
      obtain rfl : b = 0x0a := hr b rfl
      rfl
  | cons b body ih =>
    rw [List.mem_cons, not_or] at hb
    obtain ⟨hne, hb⟩ := hb
    rw [List.cons_append, scan, if_neg (Ne.symm hne), ih hb, List.length_cons]
    congr 1
    omega

theorem scan_quoted {body : List UInt8} (h : QuotedBody body) (rest : List UInt8) :
    scan .quoted place depth start (body ++ rest) =
      scan .text (place + body.length) depth start rest := by
  induction h generalizing place with
  | close => rfl
  | escape b _ ih =>
    rw [List.cons_append, List.cons_append, scan, if_neg (by decide), if_pos rfl, scan, ih]
    simp only [List.length_cons]
    congr 1
    omega
  | byte hq he _ ih =>
    rw [List.cons_append, scan, if_neg hq, if_neg he, ih, List.length_cons]
    congr 1
    omega

/-- Where the search stands in so many block comments. -/
def Mode.within : Nat → Mode
  | 0 => text
  | n + 1 => block (n + 1)

theorem scan_block {body : List UInt8} (h : BlockBody body) (outer : Nat) (rest : List UInt8) :
    scan (.within (outer + 1)) place depth start (body ++ rest) =
      scan (.within outer) (place + body.length) depth start rest := by
  induction h generalizing place outer rest with
  | close => cases outer <;> rfl
  | @nested inner tail _ _ ihi ih =>
    have hopen : scan (.within (outer + 1)) place depth start
          (0x28 :: 0x3b :: (inner ++ tail) ++ rest) =
        scan (.within (outer + 2)) (place + 2) depth start (inner ++ (tail ++ rest)) := by
      simp [Mode.within, scan]
    rw [hopen, ihi, ih]
    simp only [List.length_cons, List.length_append]
    congr 1
    omega
  | @byte b tail ho hc h ih =>
    have hhead : (tail ++ rest).head? = tail.head? := by
      cases tail with
      | nil => exact absurd rfl h.ne_nil
      | cons _ _ => rfl
    have hstep : scan (.within (outer + 1)) place depth start (b :: tail ++ rest) =
        scan (.within (outer + 1)) (place + 1) depth start (tail ++ rest) := by
      simp [Mode.within, scan, hhead, ho, hc]
    rw [hstep, ih, List.length_cons]
    congr 1
    omega

theorem scan_opening {rest : List UInt8} (h : rest.head? ≠ some 0x3b) :
    scan .text place depth start (Token.opening.text ++ rest) =
      scan .text (place + 1) (depth + 1)
        (if depth = 0 ∧ startsModule rest then some place else start) rest := by
  simp [Token.text, scan, h]

/-- A closing parenthesis behind which something is still open. -/
theorem scan_closing (rest : List UInt8) :
    scan .text place (depth + 2) start (Token.closing.text ++ rest) =
      scan .text (place + 1) (depth + 1) start rest := by
  simp [Token.text, scan]

/-- A token that is no parenthesis is passed over. -/
theorem scan_token {t : Token} {rest : List UInt8} (h : t.ReadBefore rest) (ho : t ≠ .opening)
    (hc : t ≠ .closing) :
    scan .text place depth start (t.text ++ rest) =
      scan .text (place + t.text.length) depth start rest := by
  cases h with
  | @line body _ hb hr =>
    have hmark : scan .text place depth start (0x3b :: 0x3b :: body ++ rest) =
        scan .line (place + 2) depth start (body ++ rest) := by simp [scan]
    rw [Token.text, hmark, scan_line hb hr]
    simp only [List.length_cons]
    congr 1
    omega
  | @block body _ h =>
    have hmark : scan .text place depth start (0x28 :: 0x3b :: body ++ rest) =
        scan (.within 1) (place + 2) depth start (body ++ rest) := by simp [scan, Mode.within]
    rw [Token.text, hmark, scan_block h, Mode.within]
    simp only [List.length_cons]
    congr 1
    omega
  | @quoted body _ h =>
    have hmark : scan .text place depth start (0x22 :: body ++ rest) =
        scan .quoted (place + 1) depth start (body ++ rest) := by simp [scan]
    rw [Token.text, hmark, scan_quoted h]
    simp only [List.length_cons]
    congr 1
    omega
  | opening h => exact absurd rfl ho
  | closing => exact absurd rfl hc
  | @other b _ hq hno hnc hl => simp [Token.text, scan, hq, hno, hnc, hl]

/-! ## Sources that cannot be read on -/

/-- A string that is not closed ends the search. -/
theorem quotedBody_or_stuck (bytes : List UInt8) :
    (∃ body rest, QuotedBody body ∧ bytes = body ++ rest) ∨
      ∀ place depth start, scan .quoted place depth start bytes = none := by
  induction hn : bytes.length using Nat.strongRecOn generalizing bytes with
  | ind n ih =>
    subst hn
    match bytes with
    | [] => exact .inr fun _ _ _ => rfl
    | b :: rest =>
      by_cases hq : b = 0x22
      · exact .inl ⟨[b], rest, hq ▸ .close, rfl⟩
      · by_cases he : b = 0x5c
        · subst he
          match rest with
          | [] => exact .inr fun _ _ _ => rfl
          | c :: rest =>
            rcases ih rest.length (by grind) rest rfl with ⟨body, tail, h, rfl⟩ | h
            · exact .inl ⟨_, tail, .escape c h, rfl⟩
            · exact .inr fun _ _ _ => h _ _ _
        · rcases ih rest.length (by simp) rest rfl with ⟨body, tail, h, rfl⟩ | h
          · exact .inl ⟨_, tail, .byte hq he h, rfl⟩
          · refine .inr fun place depth start => ?_
            rw [scan, if_neg hq, if_neg he]
            exact h _ _ _

/-- A block comment that is not closed ends the search, however many there are around it. -/
theorem blockBody_or_stuck (bytes : List UInt8) :
    (∃ body rest, BlockBody body ∧ bytes = body ++ rest) ∨
      ∀ outer place depth start, scan (.within (outer + 1)) place depth start bytes = none := by
  induction hn : bytes.length using Nat.strongRecOn generalizing bytes with
  | ind n ih =>
    subst hn
    match bytes with
    | [] => exact .inr fun _ _ _ _ => rfl
    | b :: rest =>
      by_cases ho : b = 0x28 ∧ rest.head? = some 0x3b
      · obtain ⟨rfl, hr⟩ := ho
        obtain ⟨rest, rfl⟩ := List.head?_eq_some_iff.1 hr
        have hopen : ∀ outer place depth start,
            scan (.within (outer + 1)) place depth start (0x28 :: 0x3b :: rest) =
              scan (.within (outer + 2)) (place + 2) depth start rest := by
          simp [Mode.within, scan]
        rcases ih rest.length (by grind) rest rfl with ⟨inner, tail, hi, rfl⟩ | h
        · rcases ih tail.length (by grind) tail rfl with ⟨body, tail, hb, rfl⟩ | h
          · exact .inl ⟨_, tail, .nested hi hb, by simp⟩
          · refine .inr fun outer place depth start => ?_
            rw [hopen, scan_block hi, h]
        · refine .inr fun outer place depth start => ?_
          rw [hopen, h]
      · by_cases hc : b = 0x3b ∧ rest.head? = some 0x29
        · obtain ⟨rfl, hr⟩ := hc
          obtain ⟨rest, rfl⟩ := List.head?_eq_some_iff.1 hr
          exact .inl ⟨_, rest, .close, rfl⟩
        · rcases ih rest.length (by simp) rest rfl with ⟨body, tail, h, rfl⟩ | h
          · refine .inl ⟨b :: body, tail, .byte ?_ ?_ h, rfl⟩
            all_goals
              obtain ⟨c, body, rfl⟩ := List.exists_cons_of_ne_nil h.ne_nil
              assumption
          · refine .inr fun outer place depth start => ?_
            have hstep : scan (.within (outer + 1)) place depth start (b :: rest) =
                scan (.within (outer + 1)) (place + 1) depth start rest := by
              simp [Mode.within, scan, ho, hc]
            rw [hstep, h]

/-- What a source begins with: a token, or something that ends the search. -/
theorem token_or_stuck (bytes : List UInt8) :
    (∃ t rest, Token.ReadBefore t rest ∧ bytes = t.text ++ rest) ∨
      ∀ place depth start, scan .text place depth start bytes = none := by
  match bytes with
  | [] => exact .inr fun _ _ _ => rfl
  | b :: rest =>
    by_cases hl : b = 0x3b ∧ rest.head? = some 0x3b
    · obtain ⟨rfl, hr⟩ := hl
      obtain ⟨rest, rfl⟩ := List.head?_eq_some_iff.1 hr
      refine .inl ⟨.line (rest.takeWhile (· ≠ 0x0a)), rest.dropWhile (· ≠ 0x0a), .line ?_ ?_, ?_⟩
      · intro hmem
        simpa using List.mem_takeWhile_imp hmem
      · intro b hb
        have := List.head?_dropWhile_not (· ≠ (0x0a : UInt8)) rest
        rw [hb] at this
        simpa using this
      · simp [Token.text]
    · by_cases hb : b = 0x28 ∧ rest.head? = some 0x3b
      · obtain ⟨rfl, hr⟩ := hb
        obtain ⟨rest, rfl⟩ := List.head?_eq_some_iff.1 hr
        rcases blockBody_or_stuck rest with ⟨body, tail, h, rfl⟩ | h
        · exact .inl ⟨.block body, tail, .block h, rfl⟩
        · exact .inr fun place depth start => h 0 (place + 2) depth start
      · by_cases hq : b = 0x22
        · subst hq
          rcases quotedBody_or_stuck rest with ⟨body, tail, h, rfl⟩ | h
          · exact .inl ⟨.quoted body, tail, .quoted h, rfl⟩
          · exact .inr fun place depth start => h (place + 1) depth start
        · by_cases ho : b = 0x28
          · subst ho
            exact .inl ⟨.opening, rest, .opening fun h => hb ⟨rfl, h⟩, rfl⟩
          · by_cases hc : b = 0x29
            · exact .inl ⟨.closing, rest, .closing, hc ▸ rfl⟩
            · exact .inl ⟨.other b, rest, .other hq ho hc hl, rfl⟩

/-- To show something of every source, show it where the search ends, and pass it on from what is
left behind a token to what begins with that token. -/
theorem reading_induction {motive : List UInt8 → Prop}
    (stuck : ∀ bytes, (∀ place depth start, scan .text place depth start bytes = none) →
      motive bytes)
    (token : ∀ (t : Token) (rest : List UInt8), t.ReadBefore rest → motive rest →
      motive (t.text ++ rest)) (bytes : List UInt8) : motive bytes := by
  induction hn : bytes.length using Nat.strongRecOn generalizing bytes with
  | ind n ih =>
    subst hn
    rcases token_or_stuck bytes with ⟨t, rest, ht, rfl⟩ | h
    · refine token t rest ht (ih rest.length ?_ rest rfl)
      have := List.length_pos_iff.2 t.text_ne_nil
      rw [List.length_append]
      omega
    · exact stuck bytes h

/-! ## Inside the form -/

/-- Behind the start of the form, tokens are passed over as long as they do not close it. -/
theorem scan_inner {bytes rest : List UInt8} {ts : List Token} (h : Lexed bytes ts rest)
    {open_ left : Nat} (hd : depthFrom open_ ts = some left) (s : Nat) :
    scan .text place (open_ + 1) (some s) bytes =
      scan .text (place + (textOf ts).length) (left + 1) (some s) rest := by
  induction h generalizing place open_ with
  | nil rest =>
    obtain rfl : open_ = left := Option.some.inj hd
    rfl
  | @cons t ts bytes rest ht h ih =>
    rw [depthFrom_cons] at hd
    rw [textOf_cons, List.length_append, ← Nat.add_assoc]
    cases t with
    | opening =>
      rcases ht with _ | _ | _ | hr
      rw [scan_opening hr, if_neg (by simp), ih hd]
      rfl
    | closing =>
      cases open_ with
      | zero => exact absurd hd (by simp [Token.depthAfter])
      | succ open_ =>
        replace hd : depthFrom open_ ts = some left := hd
        rw [scan_closing, ih hd]
        rfl
    | line _ | block _ | quoted _ | other _ =>
      rw [scan_token ht (by simp) (by simp), ih hd]

/-- If the search ends inside the form, it does so at the matching parenthesis. -/
theorem inner_of_scan (bytes : List UInt8) {place open_ s first after : Nat}
    (h : scan .text place (open_ + 1) (some s) bytes = some (first, after)) :
    first = s ∧ ∃ ts rest, Lexed bytes (ts ++ [.closing]) rest ∧ depthFrom open_ ts = some 0 ∧
      after = place + (textOf ts).length + 1 := by
  induction bytes using reading_induction generalizing place open_ with
  | stuck bytes hs => exact absurd (h.symm.trans (hs _ _ _)) (by simp)
  | token t rest ht ih =>
    cases t with
    | opening =>
      have ht' := ht
      rcases ht' with _ | _ | _ | hr
      rw [scan_opening hr, if_neg (by simp)] at h
      obtain ⟨hf, ts, left, hl, hd, ha⟩ := ih h
      refine ⟨hf, .opening :: ts, left, .cons ht hl, hd, ?_⟩
      rw [ha, textOf_cons, List.length_append, Token.text, List.length_singleton]
      omega
    | closing =>
      cases open_ with
      | zero =>
        have hend : scan .text place 1 (some s) (Token.closing.text ++ rest) =
            some (s, place + 1) := by simp [Token.text, scan]
        rw [Nat.zero_add, hend, Option.some.injEq, Prod.mk.injEq] at h
        exact ⟨h.1.symm, [], rest, .cons ht (.nil rest), rfl, h.2.symm⟩
      | succ open_ =>
        rw [scan_closing] at h
        obtain ⟨hf, ts, left, hl, hd, ha⟩ := ih h
        refine ⟨hf, .closing :: ts, left, .cons ht hl, hd, ?_⟩
        rw [ha, textOf_cons, List.length_append, Token.text, List.length_singleton]
        omega
    | line _ | block _ | quoted _ | other _ =>
      rw [scan_token ht (by simp) (by simp)] at h
      obtain ⟨hf, ts, left, hl, hd, ha⟩ := ih h
      refine ⟨hf, _ :: ts, left, .cons ht hl, hd, ?_⟩
      rw [ha, textOf_cons, List.length_append]
      omega

/-! ## Before the form -/

/-- Before the form begins, tokens are passed over as long as they close nothing that is not open
and none of them opens it. -/
theorem scan_before {bytes rest : List UInt8} {ts : List Token} (h : Lexed bytes ts rest)
    {left : Nat} (hd : depthFrom depth ts = some left)
    (hfirst : ∀ earlier later, ts = earlier ++ .opening :: later →
      depthFrom depth earlier = some 0 → ¬ ModuleWord (textOf later ++ rest)) :
    scan .text place depth none bytes =
      scan .text (place + (textOf ts).length) left none rest := by
  induction h generalizing place depth with
  | nil rest =>
    obtain rfl : depth = left := Option.some.inj hd
    rfl
  | @cons t ts bytes rest ht h ih =>
    -- the tokens behind `t` have none before them that opens the form, counted from the depth
    -- behind it
    have hnext : ∀ d, t.depthAfter depth = some d → ∀ earlier later,
        ts = earlier ++ .opening :: later → depthFrom d earlier = some 0 →
        ¬ ModuleWord (textOf later ++ rest) := by
      intro d ht earlier later hts hd
      refine hfirst (t :: earlier) later (by rw [hts]; rfl) ?_
      rw [depthFrom_cons, ht]
      exact hd
    rw [depthFrom_cons] at hd
    rw [textOf_cons, List.length_append, ← Nat.add_assoc]
    cases t with
    | opening =>
      have hword : ¬ (depth = 0 ∧ startsModule bytes = true) := by
        rintro ⟨rfl, hs⟩
        refine hfirst [] ts rfl rfl ?_
        rw [← h.source_eq]
        exact (startsModule_iff _).1 hs
      rcases ht with _ | _ | _ | hr
      rw [scan_opening hr, if_neg hword, ih hd (hnext _ rfl)]
      rfl
    | closing =>
      cases depth with
      | zero => exact absurd hd (by simp [Token.depthAfter])
      | succ depth =>
        replace hd : depthFrom depth ts = some left := hd
        have hstep : scan .text place (depth + 1) none (Token.closing.text ++ bytes) =
            scan .text (place + 1) depth none bytes := by
          cases depth <;> simp [Token.text, scan]
        rw [hstep, ih hd (hnext _ rfl)]
        rfl
    | line _ | block _ | quoted _ | other _ =>
      rw [scan_token ht (by simp) (by simp), ih hd (hnext _ rfl)]

/-- A token before a form of what is left behind it, unless the token opens a form of its own. -/
theorem FirstForm.cons {t : Token} {depth next : Nat} {bytes after : List UInt8}
    {before inner : List Token} (h : FirstForm next bytes before inner after)
    (ht : t.ReadBefore bytes) (hd : t.depthAfter depth = some next)
    (hw : ¬ (t = .opening ∧ depth = 0 ∧ ModuleWord bytes)) :
    FirstForm depth (t.text ++ bytes) (t :: before) inner after where
  lexed := .cons ht h.lexed
  level := by rw [depthFrom_cons, hd]; exact h.level
  word := h.word
  matching := h.matching
  first := by
    rintro (_ | ⟨u, earlier⟩) later hb he
    · obtain ⟨rfl, rfl⟩ := List.cons.inj hb
      rw [← h.lexed.source_eq]
      exact fun hm => hw ⟨rfl, Option.some.inj he, hm⟩
    · rw [List.cons_append] at hb
      obtain ⟨rfl, htail⟩ := List.cons.inj hb
      rw [depthFrom_cons, hd] at he
      exact h.first earlier later htail he

/-- If the search ends, it does so at the first module form. -/
theorem firstForm_of_scan (bytes : List UInt8) {place depth s e : Nat}
    (h : scan .text place depth none bytes = some (s, e)) :
    ∃ before inner after, FirstForm depth bytes before inner after ∧
      s = place + (textOf before).length ∧ e = s + (textOf inner).length + 2 := by
  induction bytes using reading_induction generalizing place depth with
  | stuck bytes hs => exact absurd (h.symm.trans (hs _ _ _)) (by simp)
  | token t rest ht ih =>
    -- what the search goes on with behind a token that does not open the form
    have hpass : ∀ next, t.depthAfter depth = some next →
        ¬ (t = .opening ∧ depth = 0 ∧ ModuleWord rest) →
        scan .text (place + t.text.length) next none rest = some (s, e) →
        ∃ before inner after, FirstForm depth (t.text ++ rest) before inner after ∧
          s = place + (textOf before).length ∧ e = s + (textOf inner).length + 2 := by
      intro next hd hw h
      obtain ⟨before, inner, after, hform, hs, he⟩ := ih h
      refine ⟨t :: before, inner, after, hform.cons ht hd hw, ?_, he⟩
      rw [hs, textOf_cons, List.length_append]
      omega
    cases t with
    | opening =>
      have ht' := ht
      rcases ht' with _ | _ | _ | hr
      rw [scan_opening hr] at h
      by_cases hw : depth = 0 ∧ startsModule rest = true
      · obtain ⟨rfl, hw⟩ := hw
        rw [if_pos ⟨rfl, hw⟩] at h
        obtain ⟨rfl, inner, after, hl, hd, he⟩ := inner_of_scan rest h
        refine ⟨[], inner, after, ⟨.cons ht hl, rfl, ?_, hd, ?_⟩, rfl, by omega⟩
        · rw [← hl.source_eq]
          exact (startsModule_iff _).1 hw
        · intro earlier later hb
          exact absurd hb (by simp)
      · rw [if_neg hw] at h
        refine hpass _ rfl ?_ h
        rintro ⟨-, hd, hm⟩
        exact hw ⟨hd, (startsModule_iff _).2 hm⟩
    | closing =>
      cases depth with
      | zero => simp [Token.text, scan] at h
      | succ depth =>
        refine hpass depth rfl (by simp) ?_
        cases depth <;> simpa [Token.text, scan] using h
    | line _ | block _ | quoted _ | other _ =>
      rw [scan_token ht (by simp) (by simp)] at h
      exact hpass depth rfl (by simp) h

/-! ## The form -/

/-- The search ends at the first module form, if there is one. -/
theorem find?_of_firstForm {source after : List UInt8} {before inner : List Token}
    (h : FirstForm 0 source before inner after) :
    find? source = some ((textOf before).length,
      (textOf before).length + (textOf inner).length + 2) := by
  obtain ⟨hbefore, hrest⟩ := h.lexed.of_append
  obtain ⟨hopen, hrest⟩ := hrest.of_cons
  obtain ⟨hinner, -⟩ := hrest.of_append
  rcases hopen with _ | _ | _ | hr
  calc find? source
    _ = scan .text (0 + (textOf before).length) 0 none
          (textOf (Token.opening :: (inner ++ [Token.closing])) ++ after) :=
        scan_before hbefore h.level fun earlier later hts hd => by
          rw [← List.append_assoc, ← textOf_append]
          exact h.first earlier later hts hd
    _ = scan .text ((textOf before).length + 1) 1 (some (textOf before).length)
          (textOf (inner ++ [.closing]) ++ after) := by
        rw [Nat.zero_add, textOf_cons, List.append_assoc, scan_opening hr,
          if_pos ⟨rfl, (startsModule_iff _).2 h.word⟩]
    _ = scan .text ((textOf before).length + 1 + (textOf inner).length) 1
          (some (textOf before).length) (Token.closing.text ++ after) := by
        rw [scan_inner hrest.of_append.1 h.matching]
        rfl
    _ = some ((textOf before).length, (textOf before).length + (textOf inner).length + 2) := by
        rw [show (textOf before).length + (textOf inner).length + 2 =
          (textOf before).length + 1 + (textOf inner).length + 1 by omega]
        rfl

theorem find?_eq_some_iff (source : List UInt8) (s e : Nat) :
    find? source = some (s, e) ↔ ∃ before inner after, FirstForm 0 source before inner after ∧
      s = (textOf before).length ∧ e = s + (textOf inner).length + 2 := by
  constructor
  · intro h
    obtain ⟨before, inner, after, hform, hs, he⟩ := firstForm_of_scan source h
    exact ⟨before, inner, after, hform, by omega, he⟩
  · rintro ⟨before, inner, after, hform, rfl, rfl⟩
    exact find?_of_firstForm hform

/-- The bytes before, in and behind the parentheses of the first module form. -/
theorem FirstForm.source_eq {source after : List UInt8} {before inner : List Token}
    (h : FirstForm 0 source before inner after) :
    source = textOf before ++ '('.toUInt8 :: (textOf inner ++ ')'.toUInt8 :: after) := by
  rw [h.lexed.source_eq, textOf_append, textOf_cons, textOf_append, List.append_assoc,
    List.append_assoc, List.append_assoc]
  rfl

/-- A text can be cut before and behind its first module form. -/
theorem FirstForm.isValid {source : String} {after : List UInt8} {before inner : List Token}
    (h : FirstForm 0 source.toUTF8.toList before inner after) :
    (String.Pos.Raw.mk (textOf before).length).IsValid source ∧
      (String.Pos.Raw.mk ((textOf before).length + (textOf inner).length + 2)).IsValid source := by
  have hclose : source.toUTF8.toList =
      (textOf before ++ '('.toUInt8 :: textOf inner) ++ ')'.toUInt8 :: after := by
    rw [h.source_eq, List.append_assoc, List.cons_append]
  refine ⟨(Text.isValid_ascii rfl h.source_eq).1, ?_⟩
  convert (Text.isValid_ascii rfl hclose).2 using 2
  rw [List.length_append, List.length_cons]
  omega

/-- What is cut out of a text for its first module form is a text. -/
theorem FirstForm.isValidUTF8 {source : String} {after : List UInt8} {before inner : List Token}
    (h : FirstForm 0 source.toUTF8.toList before inner after) :
    ('('.toUInt8 :: (textOf inner ++ [')'.toUInt8])).toByteArray.IsValidUTF8 := by
  obtain ⟨hfirst, hlast⟩ := h.isValid
  have hsource : source.toUTF8.toList =
      textOf before ++ (('('.toUInt8 :: (textOf inner ++ [')'.toUInt8])) ++ after) := by
    rw [h.source_eq]
    simp
  refine Text.isValidUTF8_between hsource hfirst ?_
  convert hlast using 2
  simp
  omega

/-- The bytes from the opening parenthesis of the form to its closing one. -/
theorem FirstForm.slice {source after : List UInt8} {before inner : List Token}
    (h : FirstForm 0 source before inner after) :
    (source.drop (textOf before).length).take
        ((textOf before).length + (textOf inner).length + 2 - (textOf before).length) =
      '('.toUInt8 :: (textOf inner ++ [')'.toUInt8]) := by
  have hsplit : source =
      textOf before ++ ('('.toUInt8 :: (textOf inner ++ [')'.toUInt8]) ++ after) := by
    rw [h.source_eq]
    simp
  rw [hsplit, List.drop_left]
  refine List.take_left' ?_
  simp
  omega

/-- A form that is found is cut out and set behind its empty lines. -/
theorem isSome_extract? (source : String) :
    (extract? source).isSome = (find? source.toUTF8.toList).isSome := by
  simp only [extract?, split?]
  cases hf : find? source.toUTF8.toList with
  | none => rfl
  | some found =>
    obtain ⟨s, e⟩ := found
    obtain ⟨before, inner, after, h, rfl, rfl⟩ := (find?_eq_some_iff _ s e).1 hf
    have hvalid (n : Nat) : ByteArray.IsValidUTF8
        ⟨(List.replicate n 0x0a ++ '('.toUInt8 :: (textOf inner ++ [')'.toUInt8])).toArray⟩ := by
      have := (Text.isValidUTF8_replicate (c := '\n') rfl n).append h.isValidUTF8
      rw [← List.toByteArray_append] at this
      rw [← List.data_toByteArray]
      exact this
    simp only [Option.map_some, Option.bind_eq_bind, Option.bind_some, h.slice]
    rw [String.fromUTF8?, dif_pos (hvalid _)]
    rfl

/-- **The first module form.** The search finds the first form at depth zero whose word is
`module`, from its opening parenthesis to the one behind its matching closing parenthesis, and
nothing if there is no such form. A text can be cut at both places, and is. -/
theorem finds_exactly_first_form (source : String) :
    (∀ s e, find? source.toUTF8.toList = some (s, e) ↔
      ∃ before inner after, FirstForm 0 source.toUTF8.toList before inner after ∧
        s = (textOf before).length ∧ e = s + (textOf inner).length + 2) ∧
    (find? source.toUTF8.toList = none ↔
      ¬ ∃ before inner after, FirstForm 0 source.toUTF8.toList before inner after) ∧
    (∀ s e, find? source.toUTF8.toList = some (s, e) →
      s < e ∧ e ≤ source.utf8ByteSize ∧
      (String.Pos.Raw.mk s).IsValid source ∧ (String.Pos.Raw.mk e).IsValid source) ∧
    (extract? source).isSome = (find? source.toUTF8.toList).isSome := by
  refine ⟨find?_eq_some_iff _, ⟨?_, ?_⟩, ?_, isSome_extract? source⟩
  · rintro hnone ⟨before, inner, after, h⟩
    exact absurd ((find?_of_firstForm h).symm.trans hnone) (by simp)
  · intro hno
    by_contra hsome
    obtain ⟨⟨s, e⟩, hf⟩ := Option.ne_none_iff_exists'.1 hsome
    obtain ⟨before, inner, after, h, -⟩ := (find?_eq_some_iff _ s e).1 hf
    exact hno ⟨before, inner, after, h⟩
  · intro s e hf
    obtain ⟨before, inner, after, h, rfl, rfl⟩ := (find?_eq_some_iff _ s e).1 hf
    obtain ⟨hfirst, hlast⟩ := h.isValid
    exact ⟨by omega, hlast.le_utf8ByteSize, hfirst, hlast⟩

end ScriptHost.ModuleForm

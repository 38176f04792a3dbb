import ScriptHost.Proofs.Preprocess.Block
import ScriptHost.Proofs.Text.Pieces

/-!
# Expansion follows the grammar of conditional blocks

The one pass over the lines and the grammar of `Block` say the same: lines are expanded exactly if
they are valid, to what every derivation of them shows, and refused with the error that `Refused`
tells (`expand_follows_grammar`).

A run over the lines of a block leaves the open branches as they were (`run_block`). The other way
round, `Opened` says what stands behind a run that has not failed: a block for every open branch,
so that closing all of them gives valid lines. What a run accepts is thus what can be continued
(`run_ok_iff_viable`), and its first failure is at the first line that cannot.
-/

namespace ScriptHost.Preprocess

variable {defines : List String}

/-- Goes through lines: the open branches behind them and what is left of each. -/
def run (defines : List String) (number : Nat) (branches : List Branch) :
    List (List Char) → Except Error (List Branch × List (List Char))
  | [] => .ok (branches, [])
  | line :: rest =>
    match step defines number line branches with
    | .error e => .error e
    | .ok (branches, text) =>
      match run defines (number + 1) branches rest with
      | .error e => .error e
      | .ok (branches, texts) => .ok (branches, text :: texts)

/-- At the end of all lines nothing may be open. -/
def finish : List Branch × List (List Char) → Except Error (List (List Char))
  | ([], texts) => .ok texts
  | (b :: _, _) => .error (.unterminated b.line)

theorem expandLines_eq_run (number : Nat) (branches : List Branch) (lines : List (List Char)) :
    expandLines defines number branches lines =
      match run defines number branches lines with
      | .error e => .error e
      | .ok r => finish r := by
  induction lines generalizing number branches with
  | nil => cases branches <;> rfl
  | cons line rest ih =>
    simp only [expandLines, run, ih]
    cases step defines number line branches with
    | error e => rfl
    | ok r =>
      simp only [bind, Except.bind]
      cases run defines (number + 1) r.1 rest with
      | error e => rfl
      | ok s =>
        obtain ⟨left, texts⟩ := s
        cases left <;> rfl

theorem run_append (number : Nat) (branches : List Branch) (before after : List (List Char)) :
    run defines number branches (before ++ after) =
      match run defines number branches before with
      | .error e => .error e
      | .ok (middle, texts) =>
        match run defines (number + before.length) middle after with
        | .error e => .error e
        | .ok (last, more) => .ok (last, texts ++ more) := by
  induction before generalizing number branches with
  | nil =>
    show run defines number branches after = _
    simp only [run, List.length_nil, Nat.add_zero]
    cases run defines number branches after <;> rfl
  | cons line rest ih =>
    simp only [List.cons_append, run, List.length_cons]
    cases step defines number line branches with
    | error e => rfl
    | ok r =>
      simp only
      rw [ih, Nat.add_right_comm, Nat.add_assoc number rest.length 1]
      cases run defines (number + 1) r.1 rest with
      | error e => rfl
      | ok s =>
        simp only
        cases run defines (number + (rest.length + 1)) s.1 after <;> rfl

theorem run_cons_ok {number : Nat} {branches next : List Branch} {line text : List Char}
    (h : step defines number line branches = .ok (next, text)) (rest : List (List Char)) :
    run defines number branches (line :: rest) =
      match run defines (number + 1) next rest with
      | .error e => .error e
      | .ok (last, texts) => .ok (last, text :: texts) := by
  simp only [run, h]

theorem run_append_ok {number : Nat} {branches middle : List Branch}
    {before texts : List (List Char)} (h : run defines number branches before = .ok (middle, texts))
    (after : List (List Char)) :
    run defines number branches (before ++ after) =
      match run defines (number + before.length) middle after with
      | .error e => .error e
      | .ok (last, more) => .ok (last, texts ++ more) := by
  rw [run_append, h]

/-! ## What one line does -/

theorem step_text (number : Nat) (branches : List Branch) (line : LineOf none) :
    step defines number line.val branches =
      .ok (branches, if selected branches then line.val else []) := by
  simp only [step, line.property]

theorem step_opening {word : List Char} (hn : (Condition.ofWord word).name ≠ []) (number : Nat)
    (branches : List Branch) (line : LineOf (some (.opening word))) :
    step defines number line.val branches =
      .ok (⟨number, selected branches, (Condition.ofWord word).holds defines, false⟩ :: branches,
        []) := by
  simp only [step, line.property, if_neg hn]

theorem step_turn (number : Nat) {b : Branch} (hb : b.complement = false) (outer : List Branch)
    (line : LineOf (some .otherwise)) :
    step defines number line.val (b :: outer) =
      .ok ({ b with complement := true } :: outer, []) := by
  simp only [step, line.property, hb, Bool.false_eq_true, if_false]

theorem step_closing (number : Nat) (b : Branch) (outer : List Branch)
    (line : LineOf (some .closing)) :
    step defines number line.val (b :: outer) = .ok (outer, []) := by
  simp only [step, line.property]

/-! ## Blocks are accepted and mean what they show -/

theorem shown_text (line : LineOf none) (around : List Bool) :
    shown (line.val, around) = if around.all id then line.val else [] := by
  simp [shown, line.property]

theorem shown_directive {d : Directive} (line : LineOf (some d)) (around : List Bool) :
    shown (line.val, around) = [] := by
  simp [shown, line.property]

theorem selected_cons (b : Branch) (branches : List Branch) {around : List Bool}
    (h : selected branches = around.all id) (he : b.enclosing = selected branches) :
    selected (b :: branches) = ((b.condition != b.complement) :: around).all id := by
  show (b.enclosing && b.condition != b.complement) = _
  rw [he, h, List.all_cons, Bool.and_comm]
  rfl

/-- A run over a block leaves the open branches as they were, and of each line what is shown. -/
theorem run_block (defines : List String) (b : Block) (hn : Named b.lines) (number : Nat)
    (branches : List Branch) (around : List Bool) (h : selected branches = around.all id) :
    run defines number branches b.lines =
      .ok (branches, (b.placed defines around).map shown) := by
  induction b generalizing number branches around with
  | empty => rfl
  | text line rest ih =>
    simp only [Block.lines] at hn ⊢
    rw [run_cons_ok (step_text number branches line), ih hn.of_cons _ branches around h]
    simp only [Block.placed, List.map_cons, shown_text, h]
  | @branch word opening yes closing rest ihy ih =>
    simp only [Block.lines, List.cons_append] at hn ⊢
    have hw : (Condition.ofWord word).name ≠ [] := hn.head opening.property
    have hy : Named yes.lines := hn.of_cons.of_append_left
    have hr : Named rest.lines := hn.of_cons.of_append_right.of_cons
    rw [run_cons_ok (step_opening hw number branches opening),
      run_append_ok (ihy hy _ _ _ (selected_cons _ branches h rfl)),
      run_cons_ok (step_closing _ _ branches closing), ih hr _ branches around h]
    simp [Block.placed, shown_directive]
  | @choice word opening yes turn no closing rest ihy ihn ih =>
    simp only [Block.lines, List.cons_append, List.append_assoc] at hn ⊢
    have hw : (Condition.ofWord word).name ≠ [] := hn.head opening.property
    have hy : Named yes.lines := hn.of_cons.of_append_left
    have ho : Named no.lines := hn.of_cons.of_append_right.of_cons.of_append_left
    have hr : Named rest.lines := hn.of_cons.of_append_right.of_cons.of_append_right.of_cons
    rw [run_cons_ok (step_opening hw number branches opening),
      run_append_ok (ihy hy _ _ _ (selected_cons _ branches h rfl)),
      run_cons_ok (step_turn _ rfl branches turn),
      run_append_ok (ihn ho _ _ _ (selected_cons _ branches h rfl)),
      run_cons_ok (step_closing _ _ branches closing), ih hr _ branches around h]
    simp [Block.placed, shown_directive]

/-! ## What stands behind a run -/

/-- The lines of a run that ends with these branches open: each was opened behind the lines that
the outer ones stand for, and what follows inside of it is a block, or two where it has turned. -/
inductive Opened : List (List Char) → List Branch → Prop
  | closed (b : Block) : Opened b.lines []
  | first {outer branches word} {f : Branch} (h : Opened outer branches)
      (opening : LineOf (some (.opening word))) (yes : Block) (hl : f.line = outer.length + 1)
      (hc : f.complement = false) : Opened (outer ++ opening.val :: yes.lines) (f :: branches)
  | second {outer branches word} {f : Branch} (h : Opened outer branches)
      (opening : LineOf (some (.opening word))) (yes : Block) (turn : LineOf (some .otherwise))
      (no : Block) (hl : f.line = outer.length + 1) (hc : f.complement = true) :
      Opened (outer ++ opening.val :: (yes.lines ++ turn.val :: no.lines)) (f :: branches)

namespace Opened

/-- A block may follow wherever it is. -/
theorem extend {lines : List (List Char)} {branches : List Branch} (h : Opened lines branches)
    (c : Block) : Opened (lines ++ c.lines) branches := by
  cases h with
  | closed b => exact Block.lines_append b c ▸ .closed (b.append c)
  | first h opening yes hl hc =>
    have := first h opening (yes.append c) hl hc
    simpa using this
  | second h opening yes turn no hl hc =>
    have := second h opening yes turn (no.append c) hl hc
    simpa using this

/-- A closing line makes a block of what the innermost branch holds. -/
theorem close {lines : List (List Char)} {f : Branch} {branches : List Branch}
    (h : Opened lines (f :: branches)) (closing : LineOf (some .closing)) :
    Opened (lines ++ [closing.val]) branches := by
  cases h with
  | first h opening yes hl hc =>
    have := h.extend (.branch opening yes closing .empty)
    simpa [Block.lines] using this
  | second h opening yes turn no hl hc =>
    have := h.extend (.choice opening yes turn no closing .empty)
    simpa [Block.lines] using this

/-- The innermost branch was opened on its line, and nothing is open inside of it. -/
theorem innermost {lines : List (List Char)} {f : Branch} {branches : List Branch}
    (h : Opened lines (f :: branches)) :
    ∃ (outer inner : List (List Char)) (word : List Char) (opening : LineOf (some (.opening word))),
      lines = outer ++ opening.val :: inner ∧ Inside inner ∧ f.line = outer.length + 1 := by
  cases h with
  | first h opening yes hl hc => exact ⟨_, _, _, opening, rfl, .first yes, hl⟩
  | second h opening yes turn no hl hc => exact ⟨_, _, _, opening, rfl, .second yes turn no, hl⟩

/-- One line that does not fail keeps track of the branches. -/
theorem step {lines : List (List Char)} {branches next : List Branch} {line text : List Char}
    (h : Opened lines branches)
    (hs : Preprocess.step defines (lines.length + 1) line branches = .ok (next, text)) :
    Opened (lines ++ [line]) next := by
  cases hd : directive? line with
  | none =>
    simp only [Preprocess.step, hd, Except.ok.injEq, Prod.mk.injEq] at hs
    obtain ⟨rfl, -⟩ := hs
    exact h.extend (.text ⟨line, hd⟩ .empty)
  | some d =>
    cases d with
    | opening word =>
      simp only [Preprocess.step, hd] at hs
      split at hs
      · cases hs
      · obtain ⟨rfl, -⟩ := Prod.mk.inj (Except.ok.inj hs)
        exact .first h ⟨line, hd⟩ .empty rfl rfl
    | otherwise =>
      cases branches with
      | nil => simp only [Preprocess.step, hd, reduceCtorEq] at hs
      | cons f outer =>
        simp only [Preprocess.step, hd] at hs
        split at hs
        · cases hs
        · rename_i hc
          obtain ⟨rfl, -⟩ := Prod.mk.inj (Except.ok.inj hs)
          cases h with
          | first h opening yes hl _ =>
            have := second (f := { f with complement := true }) h opening yes ⟨line, hd⟩ .empty
              hl rfl
            simpa [Block.lines] using this
          | second h opening yes turn no hl hc' => exact absurd hc' hc
    | closing =>
      cases branches with
      | nil => simp only [Preprocess.step, hd, reduceCtorEq] at hs
      | cons f outer =>
        simp only [Preprocess.step, hd, Except.ok.injEq, Prod.mk.injEq] at hs
        obtain ⟨rfl, -⟩ := hs
        exact h.close ⟨line, hd⟩

/-- So does a run over any number of lines. -/
theorem run {before lines : List (List Char)} {branches last : List Branch}
    {texts : List (List Char)} (h : Opened before branches)
    (hr : Preprocess.run defines (before.length + 1) branches lines = .ok (last, texts)) :
    Opened (before ++ lines) last := by
  induction lines generalizing before branches texts with
  | nil =>
    obtain ⟨rfl, -⟩ := Prod.mk.inj (Except.ok.inj hr)
    rwa [List.append_nil]
  | cons line rest ih =>
    simp only [Preprocess.run] at hr
    cases hs : Preprocess.step defines (before.length + 1) line branches with
    | error e => simp only [hs, reduceCtorEq] at hr
    | ok r =>
      obtain ⟨next, text⟩ := r
      simp only [hs] at hr
      cases ht : Preprocess.run defines (before.length + 1 + 1) next rest with
      | error e => simp only [ht, reduceCtorEq] at hr
      | ok q =>
        obtain ⟨open', more⟩ := q
        simp only [ht, Except.ok.injEq, Prod.mk.injEq] at hr
        obtain ⟨rfl, -⟩ := hr
        have := ih (h.step hs) (by simpa using ht)
        simpa using this

/-- A line that closes a branch. -/
def closingLine : LineOf (some .closing) := ⟨";;#endif".toList, by decide⟩

/-- Closing every open branch completes a block. -/
theorem completed {lines : List (List Char)} {branches : List Branch}
    (h : Opened lines branches) :
    ∃ b : Block, b.lines = lines ++ List.replicate branches.length closingLine.val := by
  induction branches generalizing lines with
  | nil =>
    cases h with
    | closed b => exact ⟨b, by simp⟩
  | cons f outer ih =>
    obtain ⟨b, hb⟩ := ih (h.close closingLine)
    exact ⟨b, by rw [hb, List.append_assoc]; rfl⟩

end Opened

/-! ## Runs and viable lines -/

theorem named_of_step {number : Nat} {branches next : List Branch} {line text : List Char}
    (h : step defines number line branches = .ok (next, text)) : Named [line] := by
  apply named_singleton
  intro word hd hn
  simp only [step, hd, if_pos hn, reduceCtorEq] at h

theorem named_of_run {number : Nat} {branches last : List Branch} {lines texts : List (List Char)}
    (h : run defines number branches lines = .ok (last, texts)) : Named lines := by
  induction lines generalizing number branches texts with
  | nil => exact fun line hl => absurd hl List.not_mem_nil
  | cons line rest ih =>
    simp only [run] at h
    cases hs : step defines number line branches with
    | error e => simp only [hs, reduceCtorEq] at h
    | ok r =>
      obtain ⟨next, text⟩ := r
      simp only [hs] at h
      cases hr : run defines (number + 1) next rest with
      | error e => simp only [hr, reduceCtorEq] at h
      | ok q =>
        simp only [hr, Except.ok.injEq, Prod.mk.injEq] at h
        exact (named_of_step hs).append (ih (hr.trans (by rw [← h.1])))

theorem viable_of_run {lines texts : List (List Char)} {branches : List Branch}
    (h : run defines 1 [] lines = .ok (branches, texts)) : Viable lines := by
  have ho : Opened lines branches := Opened.run (.closed .empty) h
  obtain ⟨b, hb⟩ := ho.completed
  refine ⟨_, ⟨b, hb⟩, (named_of_run h).append ?_⟩
  intro line hl word hd
  obtain ⟨-, rfl⟩ := List.mem_replicate.1 hl
  rw [Opened.closingLine.property] at hd
  cases hd

theorem run_of_valid (defines : List String) {lines : List (List Char)} {b : Block}
    (hb : b.lines = lines) (hn : Named lines) :
    run defines 1 [] lines = .ok ([], (b.placed defines []).map shown) := by
  subst hb
  exact run_block defines b hn 1 [] [] rfl

/-- What a run accepts is what can be continued to valid lines. -/
theorem run_ok_iff_viable (defines : List String) {lines : List (List Char)} :
    (∃ r, run defines 1 [] lines = .ok r) ↔ Viable lines := by
  constructor
  · rintro ⟨⟨branches, texts⟩, h⟩
    exact viable_of_run h
  · rintro ⟨after, ⟨b, hb⟩, hn⟩
    have h := run_of_valid defines hb hn
    rw [run_append] at h
    cases hr : run defines 1 [] lines with
    | error e => simp only [hr, reduceCtorEq] at h
    | ok r => exact ⟨r, rfl⟩

/-- Lines are valid where a run ends with nothing open. -/
theorem valid_iff_run (defines : List String) {lines : List (List Char)} :
    Valid lines ↔ ∃ texts, run defines 1 [] lines = .ok ([], texts) := by
  constructor
  · rintro ⟨⟨b, hb⟩, hn⟩
    exact ⟨_, run_of_valid defines hb hn⟩
  · rintro ⟨texts, h⟩
    have ho : Opened lines [] := Opened.run (.closed .empty) h
    cases ho with
    | closed b => exact ⟨⟨b, rfl⟩, named_of_run h⟩

/-- A run that fails does so at one line, behind others that it accepts. -/
theorem run_error {number : Nat} {branches : List Branch} {lines : List (List Char)} {e : Error}
    (h : run defines number branches lines = .error e) :
    ∃ before line after middle texts, lines = before ++ line :: after ∧
      run defines number branches before = .ok (middle, texts) ∧
      step defines (number + before.length) line middle = .error e := by
  induction lines generalizing number branches with
  | nil => cases h
  | cons line rest ih =>
    simp only [run] at h
    cases hs : step defines number line branches with
    | error e' =>
      simp only [hs, Except.error.injEq] at h
      subst h
      exact ⟨[], line, rest, branches, [], rfl, rfl, hs⟩
    | ok r =>
      obtain ⟨next, text⟩ := r
      simp only [hs] at h
      cases hr : run defines (number + 1) next rest with
      | ok q => simp only [hr, reduceCtorEq] at h
      | error e' =>
        simp only [hr, Except.error.injEq] at h
        subst h
        obtain ⟨before, l, after, middle, texts, rfl, hb, hl⟩ := ih hr
        refine ⟨line :: before, l, after, middle, text :: texts, rfl, ?_, ?_⟩
        · rw [run_cons_ok hs, hb]
        · rw [List.length_cons, Nat.add_comm before.length, ← Nat.add_assoc]
          exact hl

/-- A line breaks what is before it exactly if it fails there. -/
theorem breaksAt_iff {lines before : List (List Char)} {line : List Char} {branches : List Branch}
    {texts : List (List Char)} (h : run defines 1 [] before = .ok (branches, texts)) :
    BreaksAt lines before line ↔ (∃ after, lines = before ++ line :: after) ∧
      ∃ e, step defines (before.length + 1) line branches = .error e := by
  have hr : (∃ e, step defines (before.length + 1) line branches = .error e) ↔
      ¬ Viable (before ++ [line]) := by
    rw [← run_ok_iff_viable defines, run_append_ok h, Nat.add_comm before.length 1]
    simp only [run]
    cases step defines (1 + before.length) line branches with
    | error e => simp
    | ok r => simp
  rw [hr]
  exact ⟨fun hb => ⟨hb.split, hb.broken⟩, fun ⟨hs, hb⟩ => ⟨hs, viable_of_run h, hb⟩⟩

/-! ## The mistake that is told -/

/-- All that a line can do wrong. -/
theorem step_error {number : Nat} {branches : List Branch} {line : List Char} {e : Error}
    (h : step defines number line branches = .error e) :
    (∃ word, directive? line = some (.opening word) ∧ e = .missingSymbol number) ∨
    (directive? line = some .otherwise ∧ branches = [] ∧ e = .strayElse number) ∨
    (directive? line = some .otherwise ∧ branches ≠ [] ∧ e = .duplicateElse number) ∨
    (directive? line = some .closing ∧ e = .strayEndif number) := by
  cases hd : directive? line with
  | none => simp only [step, hd, reduceCtorEq] at h
  | some d =>
    cases d with
    | opening word =>
      simp only [step, hd] at h
      split at h
      · exact .inl ⟨word, rfl, (Except.error.inj h).symm⟩
      · cases h
    | otherwise =>
      cases branches with
      | nil =>
        simp only [step, hd, Except.error.injEq] at h
        exact .inr (.inl ⟨rfl, rfl, h.symm⟩)
      | cons f outer =>
        simp only [step, hd] at h
        split at h
        · exact .inr (.inr (.inl ⟨rfl, List.cons_ne_nil f outer, (Except.error.inj h).symm⟩))
        · cases h
    | closing =>
      cases branches with
      | nil =>
        simp only [step, hd, Except.error.injEq] at h
        exact .inr (.inr (.inr ⟨rfl, h.symm⟩))
      | cons f outer => simp only [step, hd, reduceCtorEq] at h

theorem refused_of_step {lines before : List (List Char)} {line : List Char} {e : Error}
    {branches : List Branch} {texts : List (List Char)} (hb : BreaksAt lines before line)
    (hr : run defines 1 [] before = .ok (branches, texts))
    (hs : step defines (before.length + 1) line branches = .error e) : Refused lines e := by
  have hv : Valid before ↔ branches = [] := by
    rw [valid_iff_run defines]
    constructor
    · rintro ⟨_, h⟩
      exact (Prod.mk.inj (Except.ok.inj (hr.symm.trans h))).1
    · rintro rfl
      exact ⟨texts, hr⟩
  rcases step_error hs with ⟨word, hd, rfl⟩ | ⟨hd, h, rfl⟩ | ⟨hd, h, rfl⟩ | ⟨hd, rfl⟩
  · exact .missingSymbol hb hd
  · exact .strayElse hb hd (hv.2 h)
  · exact .duplicateElse hb hd (fun hc => h (hv.1 hc))
  · exact .strayEndif hb hd

/-- Where lines break, a run over them fails. -/
theorem run_of_breaksAt (defines : List String) {lines before : List (List Char)} {line : List Char}
    (h : BreaksAt lines before line) :
    ∃ branches texts e, run defines 1 [] before = .ok (branches, texts) ∧
      step defines (before.length + 1) line branches = .error e ∧
      run defines 1 [] lines = .error e := by
  obtain ⟨⟨branches, texts⟩, hr⟩ := (run_ok_iff_viable defines).2 h.viable
  obtain ⟨⟨after, rfl⟩, e, hs⟩ := (breaksAt_iff hr).1 h
  refine ⟨branches, texts, e, hr, hs, ?_⟩
  rw [run_append_ok hr, Nat.add_comm 1]
  simp only [run, hs]

/-- A run inside of a branch leaves that branch open. -/
theorem run_inside (defines : List String) {inner : List (List Char)} (h : Inside inner)
    (hn : Named inner) (number : Nat) {f : Branch} (hf : f.complement = false) (outer : List Branch) :
    ∃ f' texts, run defines number (f :: outer) inner = .ok (f' :: outer, texts) ∧
      f'.line = f.line := by
  have block (b : Block) (hb : Named b.lines) (number : Nat) (branches : List Branch) :=
    run_block defines b hb number branches [selected branches] (by simp)
  cases h with
  | first yes => exact ⟨f, _, block yes hn number _, rfl⟩
  | second yes turn no =>
    have h := run_append_ok (block yes hn.of_append_left number (f :: outer))
      (turn.val :: no.lines)
    rw [run_cons_ok (step_turn _ hf _ turn), block no hn.of_append_right.of_cons] at h
    exact ⟨_, _, h, rfl⟩

/-- The mistake of lines is the failure of a run over them, or that it leaves a branch open. -/
theorem refused_iff_run (defines : List String) {lines : List (List Char)} {e : Error} :
    Refused lines e ↔ run defines 1 [] lines = .error e ∨
      ∃ f outer texts, run defines 1 [] lines = .ok (f :: outer, texts) ∧
        e = .unterminated f.line := by
  constructor
  · intro h
    cases h with
    | missingSymbol hb hd =>
      obtain ⟨branches, texts, e, -, hs, he⟩ := run_of_breaksAt defines hb
      rcases step_error hs with ⟨_, -, rfl⟩ | ⟨h, -⟩ | ⟨h, -⟩ | ⟨h, -⟩
      · exact .inl he
      all_goals exact absurd (hd.symm.trans h) (by simp)
    | strayElse hb hd closed =>
      obtain ⟨branches, texts, e, hr, hs, he⟩ := run_of_breaksAt defines hb
      obtain ⟨_, hv⟩ := (valid_iff_run defines).1 closed
      obtain ⟨rfl, -⟩ := Prod.mk.inj (Except.ok.inj (hr.symm.trans hv))
      rcases step_error hs with ⟨_, h, -⟩ | ⟨-, -, rfl⟩ | ⟨-, h, -⟩ | ⟨h, -⟩
      · exact absurd (hd.symm.trans h) (by simp)
      · exact .inl he
      · exact absurd rfl h
      · exact absurd (hd.symm.trans h) (by simp)
    | duplicateElse hb hd opened =>
      obtain ⟨branches, texts, e, hr, hs, he⟩ := run_of_breaksAt defines hb
      rcases step_error hs with ⟨_, h, -⟩ | ⟨-, rfl, -⟩ | ⟨-, -, rfl⟩ | ⟨h, -⟩
      · exact absurd (hd.symm.trans h) (by simp)
      · exact absurd ((valid_iff_run defines).2 ⟨texts, hr⟩) opened
      · exact .inl he
      · exact absurd (hd.symm.trans h) (by simp)
    | strayEndif hb hd =>
      obtain ⟨branches, texts, e, -, hs, he⟩ := run_of_breaksAt defines hb
      rcases step_error hs with ⟨_, h, -⟩ | ⟨h, -⟩ | ⟨h, -⟩ | ⟨-, rfl⟩
      · exact absurd (hd.symm.trans h) (by simp)
      · exact absurd (hd.symm.trans h) (by simp)
      · exact absurd (hd.symm.trans h) (by simp)
      · exact .inl he
    | @unterminated outer inner word viable opening split inside =>
      subst split
      obtain ⟨⟨branches, texts⟩, hr⟩ :=
        (run_ok_iff_viable defines).2 viable.of_append
      obtain ⟨after, -, hn⟩ := viable
      have hn : Named (opening.val :: inner) := hn.of_append_left.of_append_right
      obtain ⟨f', more, hi, hl⟩ := run_inside defines inside hn.of_cons
        (1 + outer.length + 1)
        (f := ⟨1 + outer.length, selected branches, (Condition.ofWord word).holds defines, false⟩)
        rfl branches
      refine .inr ⟨f', branches, texts ++ [] :: more, ?_, ?_⟩
      · rw [run_append_ok hr, run_cons_ok (step_opening (hn.head opening.property) _ _ opening), hi]
      · rw [hl, Nat.add_comm outer.length 1]
  · rintro (h | ⟨f, outer, texts, h, rfl⟩)
    · obtain ⟨before, line, after, middle, texts, rfl, hr, hs⟩ := run_error h
      rw [Nat.add_comm 1] at hs
      exact refused_of_step ((breaksAt_iff hr).2 ⟨⟨after, rfl⟩, e, hs⟩) hr hs
    · have ho : Opened lines (f :: outer) := Opened.run (.closed .empty) h
      obtain ⟨before, inner, word, opening, hl, hi, hf⟩ := ho.innermost
      rw [hf]
      exact .unterminated (viable_of_run h) opening hl hi

/-! ## Whole texts -/

/-- The lines of a text. -/
def linesOf (source : String) : List (List Char) := Text.splitOnChar '\n' source.toList

theorem linesOf_ofList {lines : List (List Char)} (hne : lines ≠ [])
    (h : ∀ line ∈ lines, '\n' ∉ line) :
    linesOf (String.ofList (Text.joinWith '\n' lines)) = lines := by
  rw [linesOf, String.toList_ofList, Text.splitOnChar_joinWith hne h]

/-- A shown line is a line of the text, or empty. -/
theorem not_mem_shown {c : Char} {place : List Char × List Bool} (h : c ∉ place.1) :
    c ∉ shown place := by
  unfold shown
  split
  · exact h
  · exact List.not_mem_nil

theorem expand_eq (source : String) :
    expand defines source =
      match run defines 1 [] (linesOf source) with
      | .error e => .error e
      | .ok r => (finish r).map fun lines => String.ofList (Text.joinWith '\n' lines) := by
  unfold expand
  simp only [expandLines_eq_run, linesOf]
  cases run defines 1 [] (Text.splitOnChar '\n' source.toList) with
  | error e => rfl
  | ok r =>
    obtain ⟨left, texts⟩ := r
    cases left <;> rfl

theorem expand_of_valid (defines : List String) {source : String} {b : Block}
    (hb : b.lines = linesOf source) (hn : Named (linesOf source)) :
    ∃ text, expand defines source = .ok text ∧
      linesOf text = (b.placed defines []).map shown := by
  refine ⟨_, by rw [expand_eq, run_of_valid defines hb hn]; rfl, linesOf_ofList ?_ ?_⟩
  · intro hnil
    rw [List.map_eq_nil_iff] at hnil
    have : b.lines = [] := by rw [← b.map_fst_placed defines [], hnil]; rfl
    exact Text.splitOnChar_ne_nil _ _ (hb.symm.trans this)
  · intro line hl
    obtain ⟨place, hp, rfl⟩ := List.mem_map.1 hl
    have hmem : place.1 ∈ linesOf source := by
      rw [← hb, ← b.map_fst_placed defines []]
      exact List.mem_map_of_mem hp
    exact not_mem_shown (Text.not_mem_of_mem_splitOnChar hmem)

/-- Only valid lines are expanded. -/
theorem valid_of_expand {source text : String} (h : expand defines source = .ok text) :
    Valid (linesOf source) := by
  rw [expand_eq] at h
  apply (valid_iff_run defines).2
  cases hr : run defines 1 [] (linesOf source) with
  | error e => simp only [hr, reduceCtorEq] at h
  | ok r =>
    obtain ⟨left, texts⟩ := r
    cases left with
    | nil => exact ⟨texts, rfl⟩
    | cons f outer => simp [hr, finish, Except.map] at h

/-- A text is refused exactly with the mistake of its lines. -/
theorem expand_eq_error_iff {source : String} {e : Error} :
    expand defines source = .error e ↔ Refused (linesOf source) e := by
  rw [expand_eq, refused_iff_run defines]
  cases run defines 1 [] (linesOf source) with
  | error e' => simp
  | ok r =>
    obtain ⟨left, texts⟩ := r
    cases left with
    | nil => simp [finish, Except.map]
    | cons f outer => simp [finish, Except.map, eq_comm]

/-- **Expansion follows the grammar.** A text is expanded exactly if its lines are valid. Every
derivation of them then gives the lines of the result, as many as there were: each is the line in
its place if that is text in branches that all hold, and empty otherwise. A text is refused
exactly with the mistake of its lines. -/
theorem expand_follows_grammar (defines : List String) (source : String) :
    ((∃ text, expand defines source = .ok text) ↔ Valid (linesOf source)) ∧
    (∀ (text : String) (b : Block), expand defines source = .ok text → b.lines = linesOf source →
      linesOf text = (b.placed defines []).map shown ∧
      (linesOf text).length = (linesOf source).length) ∧
    ∀ e, expand defines source = .error e ↔ Refused (linesOf source) e := by
  refine ⟨⟨?_, ?_⟩, ?_, ?_⟩
  · rintro ⟨text, h⟩
    exact valid_of_expand h
  · rintro ⟨⟨b, hb⟩, hn⟩
    obtain ⟨text, h, -⟩ := expand_of_valid defines hb hn
    exact ⟨text, h⟩
  · intro text b h hb
    have hn : Named (linesOf source) := (valid_of_expand h).named
    obtain ⟨text', h', hl⟩ := expand_of_valid defines hb hn
    obtain rfl : text = text' := Except.ok.inj (h.symm.trans h')
    refine ⟨hl, ?_⟩
    rw [hl, List.length_map, ← hb, ← b.map_fst_placed defines [], List.length_map]
  · exact fun e => expand_eq_error_iff

end ScriptHost.Preprocess

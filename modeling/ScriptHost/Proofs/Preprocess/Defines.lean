import ScriptHost.Proofs.Preprocess.Expansion

/-!
# What defined names can change

No mistake depends on the names that are defined, since the mistake of lines is told by the grammar
alone (`expand_eq_error_iff`). What is left of the lines depends on the names that opening lines
test, and of these only on such as stand in branches that all hold: inside of a branch that does not
hold nothing is shown, whatever its conditions say (`map_shown_placed_eq`). Which names are tested
is told by the derivation of the lines, of which there is one at most (`Block.eq_of_lines`).

Of an expanded text nothing is tested any more. Directives and lines that are not selected have become
empty, so no line is a directive, and the text is expanded to itself whatever names are defined
(`expand_projects`).
-/

namespace ScriptHost.Preprocess

variable {defines defines' : List String}

/-! ## Derivations are unique -/

/-- Lines go on behind a block: with one that turns or closes a branch, if there are any. -/
def GoesOn (lines : List (List Char)) : Prop :=
  ∀ line ∈ lines.head?, directive? line = some .otherwise ∨ directive? line = some .closing

theorem GoesOn.nil : GoesOn [] := by simp [GoesOn]

theorem GoesOn.otherwise {line : LineOf (some .otherwise)} {rest : List (List Char)} :
    GoesOn (line.val :: rest) := by
  rintro _ ⟨⟩
  exact .inl line.property

theorem GoesOn.closing {line : LineOf (some .closing)} {rest : List (List Char)} :
    GoesOn (line.val :: rest) := by
  rintro _ ⟨⟩
  exact .inr line.property

theorem GoesOn.ne_text {lines rest : List (List Char)} (h : GoesOn lines) (line : LineOf none) :
    lines ≠ line.val :: rest := by
  rintro rfl
  have := h _ rfl
  rw [line.property] at this
  simp at this

theorem GoesOn.ne_opening {lines rest : List (List Char)} (h : GoesOn lines) {word : List Char}
    (line : LineOf (some (.opening word))) : lines ≠ line.val :: rest := by
  rintro rfl
  have := h _ rfl
  rw [line.property] at this
  simp at this

/-- Lines hold one directive each. -/
theorem directive_eq {d e : Option Directive} {line : LineOf d} {other : LineOf e}
    (h : line.val = other.val) : d = e := by rw [← line.property, h, other.property]

namespace Block

/-- Lines that begin with a block and then go on with what is none do so in one way. -/
theorem lines_append_inj {b c : Block} {x y : List (List Char)} (hx : GoesOn x) (hy : GoesOn y)
    (h : b.lines ++ x = c.lines ++ y) : b = c ∧ x = y := by
  have differ {d e : Option Directive} {line : LineOf d} {other : LineOf e} {P : Prop}
      (heq : line.val = other.val) (hne : d ≠ e) : P := absurd (directive_eq heq) hne
  induction b generalizing c x y with
  | empty =>
    cases c with
    | empty => exact ⟨rfl, h⟩
    | text => exact absurd h (hx.ne_text _)
    | branch => exact absurd h (hx.ne_opening _)
    | choice => exact absurd h (hx.ne_opening _)
  | text line rest ih =>
    cases c with
    | empty => exact absurd h.symm (hy.ne_text _)
    | text line' rest' =>
      obtain ⟨hline, hrest⟩ := List.cons.inj h
      obtain ⟨rfl, rfl⟩ := ih hx hy hrest
      exact ⟨by rw [Subtype.ext hline], rfl⟩
    | branch => exact differ (List.cons.inj h).1 (by simp)
    | choice => exact differ (List.cons.inj h).1 (by simp)
  | branch opening yes closing rest ihy ih =>
    cases c with
    | empty => exact absurd h.symm (hy.ne_opening _)
    | text => exact differ (List.cons.inj h).1 (by simp)
    | branch opening' yes' closing' rest' =>
      simp only [lines, List.cons_append, List.append_assoc, List.cons.injEq] at h
      cases directive_eq h.1
      obtain ⟨rfl, htail⟩ := ihy .closing .closing h.2
      obtain ⟨hclosing, hrest⟩ := List.cons.inj htail
      obtain ⟨rfl, rfl⟩ := ih hx hy hrest
      obtain rfl : opening = opening' := Subtype.ext h.1
      obtain rfl : closing = closing' := Subtype.ext hclosing
      exact ⟨rfl, rfl⟩
    | choice opening' yes' turn' no' closing' rest' =>
      simp only [lines, List.cons_append, List.append_assoc, List.cons.injEq] at h
      obtain ⟨-, htail⟩ := ihy .closing .otherwise h.2
      exact differ (List.cons.inj htail).1 (by simp)
  | choice opening yes turn no closing rest ihy ihn ih =>
    cases c with
    | empty => exact absurd h.symm (hy.ne_opening _)
    | text => exact differ (List.cons.inj h).1 (by simp)
    | branch opening' yes' closing' rest' =>
      simp only [lines, List.cons_append, List.append_assoc, List.cons.injEq] at h
      obtain ⟨-, htail⟩ := ihy .otherwise .closing h.2
      exact differ (List.cons.inj htail).1 (by simp)
    | choice opening' yes' turn' no' closing' rest' =>
      simp only [lines, List.cons_append, List.append_assoc, List.cons.injEq] at h
      cases directive_eq h.1
      obtain ⟨rfl, hbehind⟩ := ihy .otherwise .otherwise h.2
      obtain ⟨hturn, hno⟩ := List.cons.inj hbehind
      obtain ⟨rfl, htail⟩ := ihn .closing .closing hno
      obtain ⟨hclosing, hrest⟩ := List.cons.inj htail
      obtain ⟨rfl, rfl⟩ := ih hx hy hrest
      obtain rfl : opening = opening' := Subtype.ext h.1
      obtain rfl : turn = turn' := Subtype.ext hturn
      obtain rfl : closing = closing' := Subtype.ext hclosing
      exact ⟨rfl, rfl⟩

/-- Lines are derived in one way. -/
theorem eq_of_lines {b c : Block} (h : b.lines = c.lines) : b = c :=
  (lines_append_inj .nil .nil (congrArg (· ++ []) h)).1

end Block

/-! ## Tests -/

/-- The name that a line tests: that of an opening line all of whose branches hold. -/
def testedName? (place : List Char × List Bool) : Option String :=
  match directive? place.1 with
  | some (.opening word) =>
    if place.2.all id then some (String.ofList (Condition.ofWord word).name) else none
  | _ => none

/-- The names that the lines of a derivation test. -/
def Block.tested (defines : List String) (b : Block) : List String :=
  (b.placed defines []).filterMap testedName?

/-- Is a name tested by lines? By none unless they are a block. -/
def Tests (defines : List String) (lines : List (List Char)) (name : String) : Prop :=
  ∃ b : Block, b.lines = lines ∧ name ∈ b.tested defines

theorem tests_iff {b : Block} {name : String} :
    Tests defines b.lines name ↔ name ∈ b.tested defines := by
  refine ⟨?_, fun h => ⟨b, rfl, h⟩⟩
  rintro ⟨c, hc, h⟩
  rwa [Block.eq_of_lines hc] at h

theorem testedName?_opening {word : List Char} (line : LineOf (some (.opening word)))
    {around : List Bool} (h : around.all id = true) :
    testedName? (line.val, around) = some (String.ofList (Condition.ofWord word).name) := by
  simp only [testedName?, line.property, if_pos h]

theorem Condition.holds_eq {c : Condition}
    (h : String.ofList c.name ∈ defines ↔ String.ofList c.name ∈ defines') :
    c.holds defines = c.holds defines' := by
  have hcontains : defines.contains (String.ofList c.name) =
      defines'.contains (String.ofList c.name) := by
    rw [Bool.eq_iff_iff, List.contains_iff_mem, List.contains_iff_mem, h]
  rw [holds, holds, hcontains]

theorem all_cons_eq {a a' : Bool} {around around' : List Bool}
    (h : around.all id = around'.all id) (ha : around.all id = true → a = a') :
    (a :: around).all id = (a' :: around').all id := by
  rw [List.all_cons, List.all_cons, ← h]
  cases hall : around.all id with
  | true => rw [ha hall]
  | false => rw [Bool.and_false, Bool.and_false]

theorem shown_eq {line : List Char} {around around' : List Bool}
    (h : around.all id = around'.all id) : shown (line, around) = shown (line, around') := by
  simp only [shown, h]

/-- Names that are defined alike wherever they are tested leave the same of a block. Inside of a
branch that does not hold the conditions may differ. -/
theorem map_shown_placed_eq (b : Block) {around around' : List Bool}
    (h : around.all id = around'.all id)
    (htests : ∀ place ∈ b.placed defines around, ∀ name ∈ testedName? place,
      (name ∈ defines ↔ name ∈ defines')) :
    (b.placed defines around).map shown = (b.placed defines' around').map shown := by
  induction b generalizing around around' with
  | empty => rfl
  | text line rest ih =>
    simp only [Block.placed, List.forall_mem_cons] at htests
    simp only [Block.placed, List.map_cons, shown_eq h, ih h htests.2]
  | @branch word opening yes closing rest ihy ih =>
    simp only [Block.placed, List.cons_append, List.forall_mem_cons, List.forall_mem_append]
      at htests
    obtain ⟨hopening, hyes, -, hrest⟩ := htests
    have hholds (hall : around.all id = true) :
        (Condition.ofWord word).holds defines = (Condition.ofWord word).holds defines' :=
      Condition.holds_eq (hopening _ (testedName?_opening opening hall))
    simp only [Block.placed, List.cons_append, List.map_cons, List.map_append, shown_eq h,
      ihy (all_cons_eq h hholds) hyes, ih h hrest]
  | @choice word opening yes turn no closing rest ihy ihn ih =>
    simp only [Block.placed, List.cons_append, List.append_assoc, List.forall_mem_cons,
      List.forall_mem_append] at htests
    obtain ⟨hopening, hyes, -, hno, -, hrest⟩ := htests
    have hholds (hall : around.all id = true) :
        (Condition.ofWord word).holds defines = (Condition.ofWord word).holds defines' :=
      Condition.holds_eq (hopening _ (testedName?_opening opening hall))
    simp only [Block.placed, List.cons_append, List.append_assoc, List.map_cons, List.map_append,
      shown_eq h, ihy (all_cons_eq h hholds) hyes,
      ihn (all_cons_eq h fun hall => congrArg not (hholds hall)) hno, ih h hrest]

/-- Names that are defined alike wherever they are tested leave the same of a text. -/
theorem expand_eq_of_tests {source : String}
    (h : ∀ name, Tests defines (linesOf source) name → (name ∈ defines ↔ name ∈ defines')) :
    expand defines source = expand defines' source := by
  cases hexpand : expand defines source with
  | error e => exact (expand_eq_error_iff.2 (expand_eq_error_iff.1 hexpand)).symm
  | ok text =>
    obtain ⟨⟨b, hb⟩, hn⟩ := valid_of_expand hexpand
    have hshown : (b.placed defines []).map shown = (b.placed defines' []).map shown :=
      map_shown_placed_eq b rfl fun place hplace name hname =>
        h name ⟨b, hb, List.mem_filterMap.2 ⟨place, hplace, hname⟩⟩
    rw [← hexpand, expand_eq, expand_eq, run_of_valid defines hb hn, run_of_valid defines' hb hn,
      hshown]

/-- **What defined names can change.** A text is refused with the same mistake whatever names are
defined. Only names that it tests where all branches hold can change what is left of it: not their
order or number, and no other name, be it defined or not. -/
theorem defined_where_tested (defines defines' : List String) (source : String) :
    (∀ e, expand defines source = .error e ↔ expand defines' source = .error e) ∧
    ((∀ name, Tests defines (linesOf source) name → (name ∈ defines ↔ name ∈ defines')) →
      expand defines source = expand defines' source) ∧
    ((∀ name, name ∈ defines ↔ name ∈ defines') →
      expand defines source = expand defines' source) ∧
    ∀ name, ¬ Tests defines (linesOf source) name →
      expand (name :: defines) source = expand defines source ∧
      expand (defines.filter (· ≠ name)) source = expand defines source := by
  refine ⟨fun e => ?_, expand_eq_of_tests, fun h => expand_eq_of_tests fun name _ => h name,
    fun name hname => ?_⟩
  · rw [expand_eq_error_iff, expand_eq_error_iff]
  · have hne {other : String} (hother : Tests defines (linesOf source) other) : other ≠ name :=
      fun h => hname (h ▸ hother)
    constructor
    · refine (expand_eq_of_tests fun other hother => ?_).symm
      simp [hne hother]
    · refine (expand_eq_of_tests fun other hother => ?_).symm
      simp [hne hother]

/-! ### A text with a condition that is not looked at -/

/-- A branch that tests `B` in one that tests `A`, whose complement tests `C`. -/
def nestedText : String :=
  ";;#if A\n;;#if !B\nx\n;;#endif\n;;#else\n;;#if C\ny\n;;#endif\n;;#endif"

def nestedBlock : Block :=
  @Block.choice ['A'] ⟨";;#if A".toList, by decide⟩
    (@Block.branch ['!', 'B'] ⟨";;#if !B".toList, by decide⟩
      (.text ⟨['x'], by decide⟩ .empty) Opened.closingLine .empty)
    ⟨";;#else".toList, by decide⟩
    (@Block.branch ['C'] ⟨";;#if C".toList, by decide⟩
      (.text ⟨['y'], by decide⟩ .empty) Opened.closingLine .empty)
    Opened.closingLine .empty

theorem lines_nestedBlock : nestedBlock.lines = linesOf nestedText := by decide

/-- Where `A` is defined, it makes no difference whether `C` is, nor how often `A` is. -/
theorem defined_where_tested_nestedText :
    (∀ name, Tests ["A"] (linesOf nestedText) name →
      (name ∈ ["A"] ↔ name ∈ ["C", "A", "D", "A"])) ∧
    expand ["A"] nestedText = expand ["C", "A", "D", "A"] nestedText := by
  have htests : ∀ name, Tests ["A"] (linesOf nestedText) name →
      (name ∈ ["A"] ↔ name ∈ ["C", "A", "D", "A"]) := by
    intro name hname
    rw [← lines_nestedBlock, tests_iff] at hname
    have hall : ∀ name ∈ nestedBlock.tested ["A"],
        (name ∈ ["A"] ↔ name ∈ ["C", "A", "D", "A"]) := by decide
    exact hall name hname
  exact ⟨htests, (defined_where_tested _ _ _).2.1 htests⟩

/-! ## Expanded texts -/

/-- No line is a directive. -/
def Plain (lines : List (List Char)) : Prop := ∀ line ∈ lines, directive? line = none

/-- What is shown of a line is text or empty, and an empty line is no directive. -/
theorem directive?_shown (place : List Char × List Bool) : directive? (shown place) = none := by
  unfold shown
  split
  next h => exact Option.isNone_iff_eq_none.1 (Bool.and_eq_true_iff.1 h).1
  next => rfl

/-- A run over plain lines opens nothing and leaves all of them. -/
theorem run_of_plain (defines : List String) {lines : List (List Char)} (h : Plain lines)
    (number : Nat) : run defines number [] lines = .ok ([], lines) := by
  induction lines generalizing number with
  | nil => rfl
  | cons line rest ih =>
    obtain ⟨hline, hrest⟩ := List.forall_mem_cons.1 h
    rw [run_cons_ok (step_text number [] ⟨line, hline⟩), ih hrest]
    rfl

theorem expand_of_plain (defines : List String) {text : String} (h : Plain (linesOf text)) :
    expand defines text = .ok text := by
  rw [expand_eq, run_of_plain defines h]
  show Except.ok (String.ofList (Text.joinWith '\n' (Text.splitOnChar '\n' text.toList))) = _
  rw [Text.joinWith_splitOnChar, String.ofList_toList]

theorem plain_of_expand {source text : String} (h : expand defines source = .ok text) :
    Plain (linesOf text) := by
  obtain ⟨⟨b, hb⟩, hn⟩ := valid_of_expand h
  obtain ⟨text', h', hlines⟩ := expand_of_valid defines hb hn
  obtain rfl : text = text' := Except.ok.inj (h.symm.trans h')
  intro line hline
  rw [hlines] at hline
  obtain ⟨place, -, rfl⟩ := List.mem_map.1 hline
  exact directive?_shown place

/-- **Expanded texts.** No line of an expanded text is a directive, and it is expanded to itself
whatever names are defined then. The texts that are expanded to themselves are those of which no line
is a directive. -/
theorem expand_projects (defines : List String) (source : String) :
    (∀ text, expand defines source = .ok text →
      Plain (linesOf text) ∧ ∀ defines', expand defines' text = .ok text) ∧
    (expand defines source = .ok source ↔ Plain (linesOf source)) := by
  refine ⟨fun text h => ?_, plain_of_expand, expand_of_plain defines⟩
  have hplain : Plain (linesOf text) := plain_of_expand h
  exact ⟨hplain, fun defines' => expand_of_plain defines' hplain⟩

/-- What is left of the text with `A` defined is left of it again with `B` and `C` defined. -/
theorem expand_projects_nestedText :
    expand ["A"] nestedText = .ok "\n\nx\n\n\n\n\n\n" ∧
      expand ["B", "C"] "\n\nx\n\n\n\n\n\n" = .ok "\n\nx\n\n\n\n\n\n" := by
  have h : expand ["A"] nestedText = .ok "\n\nx\n\n\n\n\n\n" := by decide
  exact ⟨h, ((expand_projects ["A"] nestedText).1 _ h).2 ["B", "C"]⟩

end ScriptHost.Preprocess

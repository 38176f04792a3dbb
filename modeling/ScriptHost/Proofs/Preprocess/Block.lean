import ScriptHost.Preprocess

/-!
# Conditional blocks

The grammar of conditional lines and what it means. A `Block` is a derivation: lines of text and
branches, which may turn to a complement once. `Block.lines` are the lines that it derives,
`Block.placed` gives each of them with the truth of the branches around it, and a line is `shown`
if it is text and all of these hold. `Refused` says where and why lines are no block: at the first
line at which they can no longer be continued to one, or, if there is none, at the innermost
branch that is still open.
-/

namespace ScriptHost.Preprocess

/-- A line with the directive that it holds. -/
abbrev LineOf (d : Option Directive) : Type := { line : List Char // directive? line = d }

/-- A derivation of nested conditional lines. -/
inductive Block where
  | empty
  | text (line : LineOf none) (rest : Block)
  | branch {word : List Char} (opening : LineOf (some (.opening word))) (yes : Block)
      (closing : LineOf (some .closing)) (rest : Block)
  | choice {word : List Char} (opening : LineOf (some (.opening word))) (yes : Block)
      (turn : LineOf (some .otherwise)) (no : Block) (closing : LineOf (some .closing))
      (rest : Block)

namespace Block

/-- The lines that a derivation derives. -/
def lines : Block → List (List Char)
  | empty => []
  | text line rest => line.val :: rest.lines
  | branch opening yes closing rest =>
    opening.val :: yes.lines ++ closing.val :: rest.lines
  | choice opening yes turn no closing rest =>
    opening.val :: yes.lines ++ turn.val :: no.lines ++ closing.val :: rest.lines

/-- Each line with the truth of the branches that it stands in, the innermost first. A
complement holds where its condition does not. -/
def placed (defines : List String) (around : List Bool) : Block → List (List Char × List Bool)
  | empty => []
  | text line rest => (line.val, around) :: rest.placed defines around
  | @branch word opening yes closing rest =>
    let holds := (Condition.ofWord word).holds defines
    (opening.val, around) :: yes.placed defines (holds :: around) ++
      (closing.val, around) :: rest.placed defines around
  | @choice word opening yes turn no closing rest =>
    let holds := (Condition.ofWord word).holds defines
    (opening.val, around) :: yes.placed defines (holds :: around) ++
      (turn.val, around) :: no.placed defines ((!holds) :: around) ++
      (closing.val, around) :: rest.placed defines around

/-- Two derivations after each other. -/
def append : Block → Block → Block
  | empty, c => c
  | text line rest, c => text line (rest.append c)
  | branch opening yes closing rest, c => branch opening yes closing (rest.append c)
  | choice opening yes turn no closing rest, c =>
    choice opening yes turn no closing (rest.append c)

@[simp] theorem lines_append (b c : Block) : (b.append c).lines = b.lines ++ c.lines := by
  induction b with
  | empty => rfl
  | text line rest ih => simp [append, lines, ih]
  | branch opening yes closing rest _ ih => simp [append, lines, ih]
  | choice opening yes turn no closing rest _ _ ih => simp [append, lines, ih]

/-- The places are those of the derived lines, in their order. -/
@[simp] theorem map_fst_placed (defines : List String) (b : Block) (around : List Bool) :
    (b.placed defines around).map Prod.fst = b.lines := by
  induction b generalizing around with
  | empty => rfl
  | text line rest ih => simp [placed, lines, ih]
  | branch opening yes closing rest ihy ih => simp [placed, lines, ihy, ih]
  | choice opening yes turn no closing rest ihy ihn ih => simp [placed, lines, ihy, ihn, ih]

end Block

/-- What is left of a line in its place: a line of text all of whose branches hold. -/
def shown (place : List Char × List Bool) : List Char :=
  if (directive? place.1).isNone && place.2.all id then place.1 else []

/-! ## Valid and refused lines -/

/-- Every opening line names something behind at most one exclamation mark. -/
def Named (lines : List (List Char)) : Prop :=
  ∀ line ∈ lines, ∀ word, directive? line = some (.opening word) →
    (Condition.ofWord word).name ≠ []

structure Valid (lines : List (List Char)) : Prop where
  derived : ∃ b : Block, b.lines = lines
  named : Named lines

/-- Can the lines be continued to valid ones? -/
def Viable (before : List (List Char)) : Prop := ∃ after, Valid (before ++ after)

/-- `line`, which follows on `before`, is the first at which `lines` can no longer be continued. -/
structure BreaksAt (lines before : List (List Char)) (line : List Char) : Prop where
  split : ∃ after, lines = before ++ line :: after
  viable : Viable before
  broken : ¬ Viable (before ++ [line])

/-- Lines inside a branch that leave nothing open: a block, or two with a turn between them. -/
inductive Inside : List (List Char) → Prop
  | first (yes : Block) : Inside yes.lines
  | second (yes : Block) (turn : LineOf (some .otherwise)) (no : Block) :
    Inside (yes.lines ++ turn.val :: no.lines)

/-- The mistake of lines that are not valid. What a line does wrong at which they break is told
by its directive, and by whether a branch is open there. -/
inductive Refused (lines : List (List Char)) : Error → Prop
  | missingSymbol {before line word} (h : BreaksAt lines before line)
      (hd : directive? line = some (.opening word)) :
      Refused lines (.missingSymbol (before.length + 1))
  | strayElse {before line} (h : BreaksAt lines before line)
      (hd : directive? line = some .otherwise) (closed : Valid before) :
      Refused lines (.strayElse (before.length + 1))
  | duplicateElse {before line} (h : BreaksAt lines before line)
      (hd : directive? line = some .otherwise) (opened : ¬ Valid before) :
      Refused lines (.duplicateElse (before.length + 1))
  | strayEndif {before line} (h : BreaksAt lines before line)
      (hd : directive? line = some .closing) :
      Refused lines (.strayEndif (before.length + 1))
  | unterminated {outer inner word} (viable : Viable lines)
      (opening : LineOf (some (.opening word))) (split : lines = outer ++ opening.val :: inner)
      (inside : Inside inner) : Refused lines (.unterminated (outer.length + 1))

theorem Named.append {before after : List (List Char)} (hb : Named before) (ha : Named after) :
    Named (before ++ after) := by
  intro line hl
  rcases List.mem_append.1 hl with hl | hl
  · exact hb line hl
  · exact ha line hl

theorem Named.of_append_left {before after : List (List Char)} (h : Named (before ++ after)) :
    Named before := fun line hl => h line (List.mem_append_left _ hl)

theorem Named.of_append_right {before after : List (List Char)} (h : Named (before ++ after)) :
    Named after := fun line hl => h line (List.mem_append_right _ hl)

theorem Named.of_cons {line : List Char} {rest : List (List Char)} (h : Named (line :: rest)) :
    Named rest := fun l hl => h l (List.mem_cons_of_mem _ hl)

theorem Named.head {line : List Char} {rest : List (List Char)} (h : Named (line :: rest))
    {word : List Char} (hd : directive? line = some (.opening word)) :
    (Condition.ofWord word).name ≠ [] := h line List.mem_cons_self word hd

theorem named_singleton {line : List Char}
    (h : ∀ word, directive? line = some (.opening word) → (Condition.ofWord word).name ≠ []) :
    Named [line] := by
  intro l hl
  rw [List.mem_singleton] at hl
  subst hl
  exact h

/-- Lines that can be continued can be so from any point of theirs. -/
theorem Viable.of_append {before after : List (List Char)} (h : Viable (before ++ after)) :
    Viable before := by
  obtain ⟨rest, hv⟩ := h
  exact ⟨after ++ rest, by rwa [← List.append_assoc]⟩

end ScriptHost.Preprocess

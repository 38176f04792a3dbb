import ScriptHost.ModuleForm

/-!
# Tokens of test scripts

The grammar that the search for the first module form is held against. Bytes are read from left to
right into comments, strings, parentheses and other bytes (`Lexed`). A form is the `FirstForm` of a
source if its opening parenthesis stands at depth zero, nothing before it closes what is not open,
the word `module` follows on it, its closing parenthesis is the matching one, and no form at depth
zero before it has that word.
-/

namespace ScriptHost.ModuleForm

/-- A line comment behind its two semicolons, a block comment and a string behind their opening
marks, a parenthesis, or any other byte. -/
inductive Token where
  | line (body : List UInt8)
  | block (body : List UInt8)
  | quoted (body : List UInt8)
  | opening
  | closing
  | other (b : UInt8)

def Token.text : Token → List UInt8
  | line body => 0x3b :: 0x3b :: body
  | block body => 0x28 :: 0x3b :: body
  | quoted body => 0x22 :: body
  | opening => [0x28]
  | closing => [0x29]
  | other b => [b]

def textOf (ts : List Token) : List UInt8 := ts.flatMap Token.text

/-- A string behind its opening quote. A backslash takes the next byte with it. -/
inductive QuotedBody : List UInt8 → Prop
  | close : QuotedBody [0x22]
  | escape (b : UInt8) {rest : List UInt8} (h : QuotedBody rest) : QuotedBody (0x5c :: b :: rest)
  | byte {b : UInt8} {rest : List UInt8} (hq : b ≠ 0x22) (he : b ≠ 0x5c) (h : QuotedBody rest) :
    QuotedBody (b :: rest)

/-- A block comment behind its opening mark. It may hold further ones. -/
inductive BlockBody : List UInt8 → Prop
  | close : BlockBody [0x3b, 0x29]
  | nested {inner rest : List UInt8} (hi : BlockBody inner) (h : BlockBody rest) :
    BlockBody (0x28 :: 0x3b :: (inner ++ rest))
  | byte {b : UInt8} {rest : List UInt8} (ho : ¬ (b = 0x28 ∧ rest.head? = some 0x3b))
      (hc : ¬ (b = 0x3b ∧ rest.head? = some 0x29)) (h : BlockBody rest) : BlockBody (b :: rest)

/-- The token can be read where `rest` follows on it. -/
inductive Token.ReadBefore : Token → List UInt8 → Prop
  | line {body rest : List UInt8} (hb : 0x0a ∉ body) (hr : ∀ b ∈ rest.head?, b = 0x0a) :
    ReadBefore (line body) rest
  | block {body rest : List UInt8} (h : BlockBody body) : ReadBefore (block body) rest
  | quoted {body rest : List UInt8} (h : QuotedBody body) : ReadBefore (quoted body) rest
  | opening {rest : List UInt8} (h : rest.head? ≠ some 0x3b) : ReadBefore opening rest
  | closing {rest : List UInt8} : ReadBefore closing rest
  | other {b : UInt8} {rest : List UInt8} (hq : b ≠ 0x22) (ho : b ≠ 0x28) (hc : b ≠ 0x29)
      (hl : ¬ (b = 0x3b ∧ rest.head? = some 0x3b)) : ReadBefore (other b) rest

/-- Reading the bytes from left to right gives these tokens, and the last argument is left. -/
inductive Lexed : List UInt8 → List Token → List UInt8 → Prop
  | nil (rest : List UInt8) : Lexed rest [] rest
  | cons {t : Token} {ts : List Token} {bytes rest : List UInt8} (ht : t.ReadBefore bytes)
      (h : Lexed bytes ts rest) : Lexed (t.text ++ bytes) (t :: ts) rest

/-- The depth of parentheses behind a token, unless it closes what is not open. -/
def Token.depthAfter (depth : Nat) : Token → Option Nat
  | opening => some (depth + 1)
  | closing => if depth = 0 then none else some (depth - 1)
  | _ => some depth

def depthFrom (depth : Nat) (ts : List Token) : Option Nat := ts.foldlM Token.depthAfter depth

/-- The bytes begin with the word `module`, and a blank, a closing parenthesis or nothing
follows. -/
def ModuleWord (bytes : List UInt8) : Prop :=
  ∃ after : List UInt8, bytes = [0x6d, 0x6f, 0x64, 0x75, 0x6c, 0x65] ++ after ∧
    ∀ b ∈ after.head?, b ∈ [0x20, 0x09, 0x0a, 0x0c, 0x0d, 0x29]

/-- A source that begins at some depth of parentheses has its first module form behind `before`,
with `inner` between its parentheses. -/
structure FirstForm (depth : Nat) (source : List UInt8) (before inner : List Token)
    (after : List UInt8) : Prop where
  lexed : Lexed source (before ++ .opening :: (inner ++ [.closing])) after
  level : depthFrom depth before = some 0
  word : ModuleWord (textOf (inner ++ [.closing]) ++ after)
  matching : depthFrom 0 inner = some 0
  first : ∀ earlier later, before = earlier ++ .opening :: later →
    depthFrom depth earlier = some 0 →
    ¬ ModuleWord (textOf (later ++ .opening :: (inner ++ [.closing])) ++ after)

/-! ## Reading -/

@[simp]
theorem textOf_nil : textOf [] = [] := rfl

@[simp]
theorem textOf_cons (t : Token) (ts : List Token) : textOf (t :: ts) = t.text ++ textOf ts :=
  List.flatMap_cons

@[simp]
theorem textOf_append (ts us : List Token) : textOf (ts ++ us) = textOf ts ++ textOf us :=
  List.flatMap_append

@[simp]
theorem depthFrom_nil (depth : Nat) : depthFrom depth [] = some depth := rfl

theorem depthFrom_cons (depth : Nat) (t : Token) (ts : List Token) :
    depthFrom depth (t :: ts) = (t.depthAfter depth).bind fun d => depthFrom d ts :=
  List.foldlM_cons

theorem Token.text_ne_nil (t : Token) : t.text ≠ [] := by cases t <;> exact List.cons_ne_nil _ _

theorem BlockBody.ne_nil {body : List UInt8} (h : BlockBody body) : body ≠ [] := by
  cases h <;> exact List.cons_ne_nil _ _

/-- What is read and what is left make up the source. -/
theorem Lexed.source_eq {source rest : List UInt8} {ts : List Token} (h : Lexed source ts rest) :
    source = textOf ts ++ rest := by
  induction h with
  | nil rest => rfl
  | cons _ _ ih => rw [ih, textOf_cons, List.append_assoc]

theorem Lexed.append {source middle rest : List UInt8} {ts us : List Token}
    (h : Lexed source ts middle) (h' : Lexed middle us rest) : Lexed source (ts ++ us) rest := by
  induction h with
  | nil _ => exact h'
  | cons ht _ ih => exact .cons ht (ih h')

theorem Lexed.of_cons {source rest : List UInt8} {t : Token} {ts : List Token}
    (h : Lexed source (t :: ts) rest) :
    t.ReadBefore (textOf ts ++ rest) ∧ Lexed (textOf ts ++ rest) ts rest := by
  rcases h with _ | ⟨ht, h⟩
  rw [← h.source_eq]
  exact ⟨ht, h⟩

/-- Tokens that were read one after the other can be read up to any point of theirs. -/
theorem Lexed.of_append {source rest : List UInt8} {ts us : List Token}
    (h : Lexed source (ts ++ us) rest) :
    Lexed source ts (textOf us ++ rest) ∧ Lexed (textOf us ++ rest) us rest := by
  induction ts generalizing source with
  | nil =>
    have hs := h.source_eq
    rw [List.nil_append] at h hs
    exact ⟨hs ▸ .nil _, hs ▸ h⟩
  | cons t ts ih =>
    rcases h with _ | ⟨ht, h⟩
    exact ⟨.cons ht (ih h).1, (ih h).2⟩

end ScriptHost.ModuleForm

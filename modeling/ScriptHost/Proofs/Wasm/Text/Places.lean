import ScriptHost.Wasm.Text.Parser

/-!
# Places of what is read

Reading a module text does not depend on where its tokens stand. If the tokens of a form are the
same in two texts, and their places in one are those in the other under some map (`Inside`), what
is read of them is the same up to that map, or the same mistake is made at places that it relates
(`Alike`). All parsers of fields are alike in this way (`field_alike`).
-/

namespace ScriptHost.Wasm.Text

/-! ## Moving what is read -/

variable (f : Nat → Nat)

def Mistake.move (m : Mistake) : Mistake := { m with place := f m.place }

def Id.move (id : Id) : Id := { id with place := f id.place }

def Ref.move : Ref → Ref
  | .number n => .number n
  | .named id => .named (id.move f)

/-- Types of values with the names of those that have one. -/
def moveNamed (types : List (Option Id × UInt8)) : List (Option Id × UInt8) :=
  types.map fun (id, type) => (id.map (Id.move f), type)

def Signature.move (s : Signature) : Signature := { s with params := moveNamed f s.params }

/-- Only with a reference is the place one in the text. -/
def TypeUse.move (u : TypeUse) : TypeUse where
  ref := u.ref.map (Ref.move f)
  place := if u.ref.isSome then f u.place else u.place
  signature := u.signature.map (Signature.move f)

def Operand.move : Operand → Operand
  | .ref space r => .ref space (r.move f)
  | .use u => .use (u.move f)
  | .access align memory offset => .access align (memory.move f) offset
  | .unsigned n => .unsigned n
  | .signed i => .signed i
  | .raw bytes => .raw bytes

def Instr.move : Instr → Instr
  | .plain opcode operands => .plain opcode (operands.map (Operand.move f))
  | .enter opcode label u => .enter opcode (label.map (Id.move f)) (u.move f)
  | .otherwise label => .otherwise (label.map (Id.move f))
  | .leave label => .leave (label.map (Id.move f))

def moveCode (code : Code) : Code := code.map (Instr.move f)

def Mode.move : Mode → Mode
  | .active target offset => .active (target.move f) (moveCode f offset)
  | .passive => .passive
  | .declared => .declared

def Items.move : Items → Items
  | .refs functions => .refs (functions.map (Ref.move f))
  | .expressions type items => .expressions type (items.map (moveCode f))

def Wanted.move : Wanted → Wanted
  | .func u => .func (u.move f)
  | .table t limits => .table t limits
  | .memory limits => .memory limits
  | .global t mutable => .global t mutable

def Content.move : Content → Content
  | .type s => .type (s.move f)
  | .import module name wanted => .import module name (wanted.move f)
  | .func u locals code => .func (u.move f) (moveNamed f locals) (moveCode f code)
  | .table t limits => .table t limits
  | .memory limits => .memory limits
  | .global t mutable init => .global t mutable (moveCode f init)
  | .export name kind r => .export name kind (r.move f)
  | .start r => .start (r.move f)
  | .elements mode items => .elements (mode.move f) (items.move f)
  | .data mode bytes => .data (mode.move f) bytes

def Field.move (field : Field) : Field where
  id := field.id.map (Id.move f)
  place := f field.place
  exports := field.exports
  content := field.content.move f
  segment := field.segment.map (Sum.map (fun bytes => bytes) (Items.move f))

def Source.move : Source → Source
  | .fields id fs => .fields (id.map (Id.move f)) (fs.map (Field.move f))
  | .binary bytes => .binary bytes

def Parser.Level.move : Parser.Level → Parser.Level
  | .ends i => .ends (i.move f)
  | .arm => .arm
  | .condition i => .condition (i.move f)
  | .afterFirst => .afterFirst
  | .afterBoth => .afterBoth

/-! ## Tokens of a form -/

/-- A token that is neither a parenthesis nor reserved. -/
def Token.isContent : Token → Bool
  | .opening | .closing | .reserved => false
  | _ => true

theorem Token.isContent_iff (t : Token) :
    t.isContent = true ↔ t ≠ .opening ∧ t ≠ .closing ∧ t ≠ .reserved := by
  cases t <;> simp [isContent]

/-- The tokens of two texts inside of so many open forms: up to the end of the outermost one they
are the same at moved places, and nothing comes after them up to the ends `e` and `e'` of the
texts. Both may end at a reserved token before. -/
inductive Inside (e e' : Nat) : Nat → List Placed → List Placed → Prop
  | finish : Inside e e' 0 [⟨.finish, e⟩] [⟨.finish, e'⟩]
  | opening {n : Nat} {ts us : List Placed} (p : Nat) (h : Inside e e' (n + 2) ts us) :
    Inside e e' (n + 1) (⟨.opening, p⟩ :: ts) (⟨.opening, f p⟩ :: us)
  | closing {n : Nat} {ts us : List Placed} (p : Nat) (h : Inside e e' n ts us) :
    Inside e e' (n + 1) (⟨.closing, p⟩ :: ts) (⟨.closing, f p⟩ :: us)
  | content {n : Nat} {t : Token} {ts us : List Placed} (p : Nat) (ht : t.isContent = true)
    (h : Inside e e' (n + 1) ts us) : Inside e e' (n + 1) (⟨t, p⟩ :: ts) (⟨t, f p⟩ :: us)
  | reserved {n : Nat} (p : Nat) : Inside e e' (n + 1) [⟨.reserved, p⟩] [⟨.reserved, f p⟩]

/-- What is read of both, which leaves so many forms open, or the mistake in both. -/
inductive Moved {α β : Type} (e e' n : Nat) (g : α → β) :
    Except Mistake (α × List Placed) → Except Mistake (β × List Placed) → Prop
  | ok {ts us : List Placed} (a : α) (h : Inside f e e' n ts us) :
    Moved e e' n g (.ok (a, ts)) (.ok (g a, us))
  | error (m : Mistake) : Moved e e' n g (.error m) (.error (m.move f))

/-- Two parsers that begin inside of `n` open forms and end inside of `m` read the same up to
`g`. -/
def Alike {α β : Type} (n m : Nat) (g : α → β) (p : Parser α) (q : Parser β) : Prop :=
  ∀ e e' ts us, Inside f e e' n ts us → Moved f e e' m g (p ts) (q us)

/-- They do so where the next token is `t`. -/
def AlikeAt {α β : Type} (t : Token) (n m : Nat) (g : α → β) (p : Parser α) (q : Parser β) :
    Prop :=
  ∀ e e' place ts us, Inside f e e' n (⟨t, place⟩ :: ts) (⟨t, f place⟩ :: us) →
    Moved f e e' m g (p (⟨t, place⟩ :: ts)) (q (⟨t, f place⟩ :: us))

variable {f}

section Inside

variable {e e' n : Nat} {ts us : List Placed}

theorem Inside.exists_cons (h : Inside f e e' (n + 1) ts us) :
    ∃ t p ts' us', ts = ⟨t, p⟩ :: ts' ∧ us = ⟨t, f p⟩ :: us' := by
  cases h <;> exact ⟨_, _, _, _, rfl, rfl⟩

theorem Inside.map_token (h : Inside f e e' n ts us) :
    ts.map (·.token) = us.map (·.token) := by
  induction h with
  | finish | reserved _ => rfl
  | opening _ _ ih | closing _ _ ih | content _ _ _ ih => simp only [List.map_cons, ih]

theorem Inside.length_eq (h : Inside f e e' n ts us) : ts.length = us.length := by
  rw [← List.length_map (·.token), h.map_token, List.length_map]

end Inside

/-! ## Parsers that are put together -/

section Combinators

variable {α β γ δ : Type} {n m k : Nat} {g : α → β} {g' : γ → δ} {t : Token}

theorem Alike.pure {a : α} {b : β} (h : b = g a) : Alike f n n g (pure a) (pure b) := by
  intro _ _ ts us hi
  rw [h]
  exact .ok a hi

theorem Alike.same (a : α) : Alike f n n id (Pure.pure a) (Pure.pure a) := .pure rfl

theorem Alike.bind {p : Parser α} {q : Parser β} {l : α → Parser γ} {l' : β → Parser δ}
    (hp : Alike f n m g p q) (hl : ∀ a, Alike f m k g' (l a) (l' (g a))) :
    Alike f n k g' (p >>= l) (q >>= l') := by
  intro _ _ ts us hi
  have hp := hp _ _ ts us hi
  simp only [Bind.bind, StateT.bind]
  generalize p ts = x at hp
  generalize q us = y at hp
  cases hp with
  | ok a hr => exact hl a _ _ _ _ hr
  | error m => exact .error m

/-- Data without places is the same on both sides. -/
theorem Alike.seq {p q : Parser α} {l : α → Parser γ} {l' : α → Parser δ}
    (hp : Alike f n m id p q) (hl : ∀ a, Alike f m k g' (l a) (l' a)) :
    Alike f n k g' (p >>= l) (q >>= l') :=
  hp.bind hl

theorem Alike.ite {p : Parser α} {p' : Parser α} {q q' : Parser β} {c : Prop} [Decidable c]
    (h : c → Alike f n m g p q) (h' : ¬ c → Alike f n m g p' q') :
    Alike f n m g (if c then p else p') (if c then q else q') := by
  split
  · exact h ‹_›
  · exact h' ‹_›

theorem Alike.at {p : Parser α} {q : Parser β} (h : Alike f n m g p q) : AlikeAt f t n m g p q :=
  fun _ _ _ _ _ hi => h _ _ _ _ hi

theorem AlikeAt.ite {p : Parser α} {p' : Parser α} {q q' : Parser β} {c : Prop} [Decidable c]
    (h : c → AlikeAt f t n m g p q) (h' : ¬ c → AlikeAt f t n m g p' q') :
    AlikeAt f t n m g (if c then p else p') (if c then q else q') := by
  split
  · exact h ‹_›
  · exact h' ‹_›

end Combinators

namespace Parser

section Tokens

variable {α β : Type} {n m : Nat} {g : α → β} {t : Token}

theorem alike_token {l : Token → Parser α} {l' : Token → Parser β}
    (h : ∀ t, AlikeAt f t (n + 1) m g (l t) (l' t)) :
    Alike f (n + 1) m g (token >>= l) (token >>= l') := by
  intro _ _ ts us hi
  obtain ⟨t, p, ts, us, rfl, rfl⟩ := hi.exists_cons
  exact h t _ _ p ts us hi

theorem alike_here {l : Nat → Parser α} {l' : Nat → Parser β}
    (h : ∀ p, Alike f (n + 1) m g (l p) (l' (f p))) :
    Alike f (n + 1) m g (here >>= l) (here >>= l') := by
  intro _ _ ts us hi
  obtain ⟨t, p, ts, us, rfl, rfl⟩ := hi.exists_cons
  exact h p _ _ _ _ hi

theorem alikeAt_here {l : Nat → Parser α} {l' : Nat → Parser β}
    (h : ∀ p, AlikeAt f t n m g (l p) (l' (f p))) :
    AlikeAt f t n m g (here >>= l) (here >>= l') :=
  fun _ _ p _ _ hi => h p _ _ _ _ _ hi

/-- A parser may look at the tokens, but not at their places. -/
theorem alike_get {l : List Placed → Parser α} {l' : List Placed → Parser β}
    (h : ∀ {e e'} ts us, Inside f e e' n ts us → Alike f n m g (l ts) (l' us)) :
    Alike f n m g (get >>= l) (get >>= l') :=
  fun _ _ ts us hi => h ts us hi _ _ ts us hi

theorem alikeAt_advance (ht : t.isContent = true) {l : Unit → Parser α}
    {l' : Unit → Parser β} (h : Alike f (n + 1) m g (l ()) (l' ())) :
    AlikeAt f t (n + 1) m g (advance >>= l) (advance >>= l') := by
  intro _ _ place ts us hi
  cases hi with
  | opening | closing | reserved => cases ht
  | content _ _ hi => exact h _ _ _ _ hi

theorem exists_stop_eq (t : Token) (r : Reason) :
    ∃ own, ∀ (γ : Type) (p : Nat) (ts : List Placed),
      stop (α := γ) r (⟨t, p⟩ :: ts) = .error ⟨own, p⟩ := by
  cases t with
  | broken own => exact ⟨own, fun _ _ _ => rfl⟩
  | _ => exact ⟨r, fun _ _ _ => rfl⟩

theorem alike_stop (r : Reason) : Alike f (n + 1) m g (stop r) (stop r) := by
  intro _ _ ts us hi
  obtain ⟨t, p, ts, us, rfl, rfl⟩ := hi.exists_cons
  obtain ⟨own, hown⟩ := exists_stop_eq t r
  rw [hown, hown]
  exact .error ⟨own, p⟩

/-- What would come after a mistake does not matter. -/
theorem alike_stop_bind {γ : Type} (r : Reason) (l : γ → Parser α) (l' : γ → Parser β) :
    Alike f (n + 1) m g (stop r >>= l) (stop r >>= l') := by
  intro _ _ ts us hi
  obtain ⟨t, p, ts, us, rfl, rfl⟩ := hi.exists_cons
  obtain ⟨own, hown⟩ := exists_stop_eq t r
  simp only [Bind.bind, StateT.bind, hown]
  exact .error ⟨own, p⟩

theorem second_eq (ts : List Placed) :
    second ts = .ok ((ts.map (·.token)).tail.headD .finish, ts) := by
  rcases ts with _ | ⟨_, _ | ⟨_, _⟩⟩ <;> rfl

theorem alike_second : Alike f n n id second second := by
  intro _ _ ts us hi
  rw [second_eq, second_eq, hi.map_token]
  exact .ok _ hi

theorem alike_isForm (w : String) : Alike f (n + 1) (n + 1) id (isForm w) (isForm w) :=
  alike_token fun _ => (alike_second.seq fun _ => .same _).at

theorem alike_atEnd : Alike f (n + 1) (n + 1) id atEnd atEnd :=
  alike_token fun _ => (alike_token fun _ => (Alike.same _).at).at

theorem alike_isWord {w : String} {l : Bool → Parser α} {l' : Bool → Parser β}
    (h : AlikeAt f (.word w.toList) (n + 1) m g (l true) (l' true))
    (h' : Alike f (n + 1) m g (l false) (l' false)) :
    Alike f (n + 1) m g (isWord w >>= l) (isWord w >>= l') := by
  intro _ _ ts us hi
  obtain ⟨t, p, ts, us, rfl, rfl⟩ := hi.exists_cons
  show Moved f _ _ m g (l (decide (t = .word w.toList)) _) (l' (decide (t = .word w.toList)) _)
  by_cases ht : t = .word w.toList
  · subst ht
    simpa only [decide_true] using h _ _ p ts us hi
  · simpa only [ht, decide_false] using h' _ _ _ _ hi

theorem alikeAt_opening {l : Unit → Parser α} {l' : Unit → Parser β}
    (h : Alike f (n + 2) m g (l ()) (l' ())) :
    AlikeAt f .opening (n + 1) m g (advance >>= l) (advance >>= l') := by
  intro _ _ place ts us hi
  cases hi with
  | opening _ hi => exact h _ _ _ _ hi
  | content _ ht _ => cases ht

theorem alikeAt_closing {l : Unit → Parser α} {l' : Unit → Parser β}
    (h : Alike f n m g (l ()) (l' ())) :
    AlikeAt f .closing (n + 1) m g (advance >>= l) (advance >>= l') := by
  intro _ _ place ts us hi
  cases hi with
  | closing _ hi => exact h _ _ _ _ hi
  | content _ ht _ => cases ht

theorem alike_expect {t : Token} (ht : t.isContent = true) (r : Reason) :
    Alike f (n + 1) (n + 1) id (expect t r) (expect t r) := by
  refine alike_token fun u => .ite ?_ fun _ => (alike_stop r).at
  rintro rfl
  exact alikeAt_advance ht (.same ())

theorem alike_opening : Alike f (n + 1) (n + 2) id (expect .opening .expectedOpening)
    (expect .opening .expectedOpening) := by
  refine alike_token fun u => .ite ?_ fun _ => (alike_stop _).at
  rintro rfl
  exact alikeAt_opening (.same ())

theorem alike_closing : Alike f (n + 1) n id (expect .closing .expectedClosing)
    (expect .closing .expectedClosing) := by
  refine alike_token fun u => .ite ?_ fun _ => (alike_stop _).at
  rintro rfl
  exact alikeAt_closing (.same ())

end Tokens

section Forms

variable {α β : Type} {n : Nat} {g : α → β} {p : Parser α} {q : Parser β}

theorem alike_parens (h : Alike f (n + 2) (n + 2) g p q) :
    Alike f (n + 1) (n + 1) g (parens p) (parens q) :=
  alike_opening.seq fun _ => h.bind fun _ => alike_closing.seq fun _ => .pure rfl

theorem alike_word (w : String) : Alike f (n + 1) (n + 1) id (word w) (word w) :=
  alike_expect rfl _

theorem alike_form (w : String) (h : Alike f (n + 2) (n + 2) g p q) :
    Alike f (n + 1) (n + 1) g (form w p) (form w q) :=
  alike_parens ((alike_word w).seq fun _ => h)

theorem alike_repeatFor {c c' : Parser Bool} (hc : Alike f n n id c c') (h : Alike f n n g p q)
    (fuel : Nat) : Alike f n n (List.map g) (repeatFor c p fuel) (repeatFor c' q fuel) := by
  induction fuel with
  | zero => exact .pure rfl
  | succ fuel ih =>
    refine hc.seq fun _ => .ite (fun _ => ?_) fun _ => .pure rfl
    exact h.bind fun _ => ih.bind fun _ => .pure rfl

theorem alike_repeatWhile {c c' : Parser Bool} (hc : Alike f n n id c c')
    (h : Alike f n n g p q) :
    Alike f n n (List.map g) (repeatWhile c p) (repeatWhile c' q) := by
  refine alike_get fun ts us hi => ?_
  rw [hi.length_eq]
  exact alike_repeatFor hc h _

theorem alike_toEnd (h : Alike f (n + 1) (n + 1) g p q) :
    Alike f (n + 1) (n + 1) (List.map g) (toEnd p) (toEnd q) :=
  alike_repeatWhile (alike_atEnd.seq fun _ => .same _) h

end Forms

section Words

variable {α : Type} {n : Nat}

theorem alike_id? : Alike f (n + 1) (n + 1) (Option.map (Id.move f)) id? id? := by
  refine alike_token fun t => ?_
  cases t with
  | name name =>
    refine alikeAt_here fun p => ?_
    exact alikeAt_advance rfl (.pure rfl)
  | _ => exact Alike.at (.pure rfl)

theorem alike_reading (r : Reason) (meaning : List Char → Option α) :
    Alike f (n + 1) (n + 1) id (reading r meaning) (reading r meaning) := by
  refine alike_token fun t => ?_
  cases t with
  | word w =>
    dsimp only
    cases meaning w with
    | none => exact (alike_stop r).at
    | some a => exact alikeAt_advance rfl (.same a)
  | _ => exact (alike_stop r).at

theorem alike_isInteger : Alike f (n + 1) (n + 1) id isInteger isInteger := by
  refine alike_token fun t => ?_
  cases t <;> exact (Alike.same _).at

theorem alike_number (type : String) (meaning : List Char → Option α) :
    Alike f (n + 1) (n + 1) id (number type meaning) (number type meaning) :=
  alike_isInteger.seq fun _ => alike_reading _ meaning

theorem alike_isRef : Alike f (n + 1) (n + 1) id isRef isRef := by
  refine alike_token fun t => ?_
  cases t with
  | name _ => exact (Alike.same true).at
  | _ => exact alike_isInteger.at

theorem alike_ref : Alike f (n + 1) (n + 1) (Ref.move f) ref ref := by
  refine alike_id?.bind fun id => ?_
  cases id with
  | some id => exact .pure rfl
  | none =>
    exact alike_isInteger.seq fun _ =>
      .ite (fun _ => (alike_number _ _).seq fun _ => .pure rfl) fun _ => alike_stop _

theorem alike_ref? : Alike f (n + 1) (n + 1) (Option.map (Ref.move f)) ref? ref? :=
  alike_isRef.seq fun _ =>
    .ite (fun _ => alike_ref.bind fun _ => .pure rfl) fun _ => .pure rfl

theorem alike_bytes : Alike f (n + 1) (n + 1) id bytes bytes := by
  refine alike_token fun t => ?_
  cases t with
  | bytes content => exact alikeAt_advance rfl (.same content)
  | _ => exact (alike_stop _).at

theorem alike_text : Alike f (n + 1) (n + 1) id text text := by
  refine alike_token fun t => ?_
  cases t with
  | bytes content =>
    dsimp only
    cases String.fromUTF8? ⟨content.toArray⟩ with
    | none => exact (alike_stop _).at
    | some s => exact alikeAt_advance rfl (.same s)
  | _ => exact (alike_stop _).at

end Words

/-! ## Types -/

section Types

variable {n : Nat}

theorem alike_isRefType : Alike f (n + 1) (n + 1) id isRefType isRefType := by
  refine alike_token fun t => ?_
  cases t <;> exact (Alike.same _).at

theorem alike_valType : Alike f (n + 1) (n + 1) id valType valType := alike_reading _ _

theorem alike_refType : Alike f (n + 1) (n + 1) id refType refType := alike_reading _ _

theorem alike_typedNames (named : Bool) :
    Alike f (n + 1) (n + 1) (moveNamed f) (typedNames named) (typedNames named) := by
  refine alike_atEnd.seq fun _ => .ite (fun _ => .pure rfl) fun _ => ?_
  cases named with
  | true =>
    refine alike_id?.bind fun id => ?_
    cases id with
    | some id => exact alike_valType.seq fun _ => .pure rfl
    | none => exact alike_toEnd (alike_valType.seq fun _ => .pure rfl)
  | false => exact alike_toEnd (alike_valType.seq fun _ => .pure rfl)

theorem moveNamed_flatten (parts : List (List (Option Id × UInt8))) :
    moveNamed f parts.flatten = (parts.map (moveNamed f)).flatten :=
  List.map_flatten

theorem alike_signature? (named : Bool) :
    Alike f (n + 1) (n + 1) (Option.map (Signature.move f)) (signature? named)
      (signature? named) := by
  have hpart : Alike f (n + 1) (n + 1) id
      (do return (← isForm "param") || (← isForm "result"))
      (do return (← isForm "param") || (← isForm "result")) :=
    (alike_isForm _).seq fun _ => (alike_isForm _).seq fun _ => .same _
  refine hpart.seq fun _ => .ite (fun _ => .pure rfl) fun _ => ?_
  refine (alike_repeatWhile (alike_isForm _) (alike_form _ (alike_typedNames named))).bind
    fun parts => ?_
  refine (alike_repeatWhile hpart (alike_parens ((alike_word _).seq fun _ =>
    alike_toEnd alike_valType))).bind fun results => .pure ?_
  simp [Signature.move, moveNamed_flatten]

theorem alike_typeUse (named : Bool) :
    Alike f (n + 1) (n + 1) (TypeUse.move f) (typeUse named) (typeUse named) := by
  refine (alike_isForm _).seq fun _ => .ite (fun _ => ?_) fun _ => ?_
  · have href : Alike f (n + 1) (n + 1) (Prod.map (Ref.move f) f)
        (form "type" do
          let place ← here
          return (← ref, place))
        (form "type" do
          let place ← here
          return (← ref, place)) :=
      alike_form _ (alike_here fun _ => alike_ref.bind fun _ => .pure rfl)
    exact href.bind fun (ref, place) => (alike_signature? named).bind fun _ => .pure rfl
  · exact (alike_signature? named).bind fun _ => .pure rfl

theorem alike_limits : Alike f (n + 1) (n + 1) id limits limits :=
  (alike_number _ _).seq fun _ => alike_isInteger.seq fun _ =>
    .ite (fun _ => (alike_number _ _).seq fun _ => .same _) fun _ => .same _

theorem alike_globalType : Alike f (n + 1) (n + 1) id globalType globalType :=
  (alike_isForm _).seq fun _ =>
    .ite (fun _ => (alike_form _ alike_valType).seq fun _ => .same _)
      fun _ => alike_valType.seq fun _ => .same _

end Types

/-! ## Instructions -/

section Instructions

variable {n : Nat}

theorem alike_setting (key : String) :
    Alike f (n + 1) (n + 1) id (setting key) (setting key) := by
  refine alike_token fun t => ?_
  cases t with
  | word w =>
    exact .ite (fun _ => ((alike_reading _ _).seq fun _ => .same _).at)
      fun _ => (Alike.same none).at
  | _ => exact (Alike.same none).at

theorem getD_move (r : Option Ref) :
    (r.map (Ref.move f)).getD (.number 0) = (r.getD (.number 0)).move f := by
  cases r <;> rfl

theorem alike_access (size : Nat) :
    Alike f (n + 1) (n + 1) (Operand.move f) (access size) (access size) := by
  refine alike_ref?.bind fun memory => (alike_setting _).seq fun offset =>
    (alike_setting _).seq fun align => ?_
  have hend (align : Nat) : Alike f (n + 1) (n + 1) (Operand.move f)
      (pure (.access (Nat.log2 align) (memory.getD (.number 0)) (offset.getD 0)))
      (pure (.access (Nat.log2 align) ((memory.map (Ref.move f)).getD (.number 0))
        (offset.getD 0))) :=
    .pure (by rw [getD_move]; rfl)
  cases align with
  | none => exact hend size
  | some a => exact .ite (fun _ => hend a) fun _ => (alike_stop _).seq hend

theorem alike_selectTypes :
    Alike f (n + 1) (n + 1) (List.map (Operand.move f)) selectTypes selectTypes :=
  (alike_isForm _).seq fun _ => .ite (fun _ => .pure rfl) fun _ =>
    (alike_repeatWhile (alike_isForm _) (alike_form _ (alike_toEnd alike_valType))).bind
      fun types => .pure (by simp [Operand.move])

theorem alike_float (format : Decimal.BinaryFormat) (size : Nat) :
    Alike f (n + 1) (n + 1) id (operands.float format size) (operands.float format size) :=
  (alike_reading _ _).seq fun _ => .same _

theorem alike_block (opcode : UInt8) :
    Alike f (n + 1) (n + 1) (Option.map (Instr.move f))
      (do return some (.enter opcode (← id?) (← typeUse false)))
      (do return some (.enter opcode (← id?) (← typeUse false))) :=
  alike_id?.bind fun _ => (alike_typeUse false).bind fun _ => .pure rfl

theorem alike_operands (name : String) :
    Alike f (n + 1) (n + 1) (Option.map (Instr.move f)) (operands name) (operands name) := by
  unfold operands
  split
  · exact .pure rfl
  split
  · exact .pure rfl
  split
  · exact alike_ref.bind fun _ => .pure rfl
  split
  · exact alike_ref?.bind fun r => .pure (by simp [Instr.move, Operand.move, getD_move])
  split
  · refine alike_ref?.bind fun r => ?_
    cases r with
    | some _ => exact alike_ref.bind fun _ => .pure rfl
    | none => exact .pure rfl
  split
  · refine alike_ref.bind fun _ => alike_ref?.bind fun r => ?_
    cases r <;> exact .pure rfl
  split
  · exact (alike_access _).bind fun _ => .pure rfl
  split
  case h_1 => exact alike_block 0x02
  case h_2 => exact alike_block 0x03
  case h_3 => exact alike_block 0x04
  case h_4 => exact alike_id?.bind fun _ => .pure rfl
  case h_5 => exact alike_id?.bind fun _ => .pure rfl
  case h_6 =>
    exact alike_ref.bind fun _ => (alike_repeatWhile alike_isRef alike_ref).bind fun _ =>
      .pure (by simp [Instr.move, Operand.move])
  case h_7 =>
    exact alike_ref?.bind fun _ => (alike_typeUse false).bind fun _ =>
      .pure (by simp [Instr.move, Operand.move, getD_move])
  case h_8 =>
    refine alike_selectTypes.bind fun types => ?_
    cases types <;> exact .pure rfl
  case h_9 => exact (alike_number _ _).seq fun _ => .pure rfl
  case h_10 => exact (alike_number _ _).seq fun _ => .pure rfl
  case h_11 => exact (alike_float _ _).seq fun _ => .pure rfl
  case h_12 => exact (alike_float _ _).seq fun _ => .pure rfl
  case h_13 => exact (alike_reading _ _).seq fun _ => .pure rfl
  case h_14 => exact .pure rfl

theorem alike_instr : Alike f (n + 1) (n + 1) (Instr.move f) instr instr := by
  refine alike_token fun t => ?_
  cases t with
  | word w =>
    refine .ite (fun _ => (alike_stop_bind _ _ _).at) fun _ => ?_
    refine alikeAt_here fun p => alikeAt_advance rfl ?_
    refine (alike_operands _).bind fun i => ?_
    cases i with
    | some i => exact .pure rfl
    | none => exact fun _ _ _ _ _ => .error ⟨.unknownOperator, p⟩
  | _ => exact (alike_stop _).at

section Folded

variable {α β : Type} {m : Nat} {g : α → β} {l : List Level × List Instr → Parser α}
  {l' : List Level × List Instr → Parser β} {levels : List Level} {code : List Instr}
  (h : ∀ levels' code', levels'.length = levels.length + 1 →
    Alike f (n + 1) m g (l (levels', code')) (l' (levels'.map (Level.move f), moveCode f code')))

include h

theorem alike_folded :
    Alike f (n + 1) m g (openFolded.folded levels code >>= l)
      (openFolded.folded (levels.map (Level.move f)) (moveCode f code) >>= l') := by
  unfold openFolded.folded
  rw [bind_assoc, bind_assoc]
  refine alike_instr.bind fun i => ?_
  cases i with
  | enter opcode label u =>
    by_cases ho : opcode = 0x04
    · subst ho
      exact h (.condition (.enter 0x04 label u) :: levels) code rfl
    · simp only [Instr.move, pure_bind]
      exact h (.ends (.leave none) :: levels) (.enter opcode label u :: code) rfl
  | plain opcode operands => exact h (.ends (.plain opcode operands) :: levels) code rfl
  | otherwise label => exact h (.ends (.otherwise label) :: levels) code rfl
  | leave label => exact h (.ends (.leave label) :: levels) code rfl

/-- A parenthesis opens one level. -/
theorem alike_openFolded :
    Alike f (n + 1) m g (openFolded levels code >>= l)
      (openFolded (levels.map (Level.move f)) (moveCode f code) >>= l') := by
  match levels with
  | .condition i :: outer =>
    simp only [openFolded, List.map_cons, Level.move, bind_assoc]
    refine alike_isWord ?_ ?_
    · simp only [if_true, bind_assoc, pure_bind]
      refine alikeAt_advance rfl ?_
      exact h (.arm :: .afterFirst :: outer) (i :: code) rfl
    · exact alike_folded h
  | .afterFirst :: outer =>
    simp only [openFolded, List.map_cons, Level.move, bind_assoc]
    exact (alike_word _).seq fun _ => h (.arm :: .afterBoth :: outer) (.otherwise none :: code) rfl
  | .afterBoth :: _ => exact alike_stop_bind _ _ _
  | [] | .ends _ :: _ | .arm :: _ => exact alike_folded h

end Folded

/-- The end of a folded instruction closes one level. -/
theorem alikeAt_closeFolded {m : Nat} {level : Level} {code : List Instr}
    {l l' : List Instr → Parser Code}
    (h : ∀ code, Alike f n m (moveCode f) (l code) (l' (moveCode f code))) :
    AlikeAt f .closing (n + 1) m (moveCode f)
      (do
        let code ← closeFolded code level
        advance
        l code)
      (do
        let code ← closeFolded (moveCode f code) (level.move f)
        advance
        l' code) := by
  cases level with
  | condition i => exact (alike_stop_bind _ _ _).at
  | ends i =>
    simp only [closeFolded, Level.move, pure_bind]
    refine alikeAt_closing ?_
    exact h (i :: code)
  | arm =>
    simp only [closeFolded, Level.move, pure_bind]
    refine alikeAt_closing ?_
    exact h code
  | afterFirst | afterBoth =>
    simp only [closeFolded, Level.move, pure_bind]
    refine alikeAt_closing ?_
    exact h (.leave none :: code)

section Code

variable {single : Bool} {fuel : Nat} (ih : ∀ levels code,
  Alike f (n + levels.length + 1) (n + 1) (moveCode f) (codeFor single fuel levels code)
    (codeFor single fuel (levels.map (Level.move f)) (moveCode f code)))

include ih

/-- What one round does behind its checks. -/
theorem alikeAt_codeStep (t : Token) (levels : List Level) (code : List Instr) :
    AlikeAt f t (n + levels.length + 1) (n + 1) (moveCode f)
      (match t, levels with
      | .opening, _ => do
        advance
        let (levels, code) ← openFolded levels code
        codeFor single fuel levels code
      | .closing, level :: outer => do
        let code ← closeFolded code level
        advance
        if single ∧ outer.isEmpty then return code.reverse else codeFor single fuel outer code
      | _, _ => do codeFor single fuel levels ((← instr) :: code))
      (match t, levels.map (Level.move f) with
      | .opening, _ => do
        advance
        let (levels, code) ← openFolded (levels.map (Level.move f)) (moveCode f code)
        codeFor single fuel levels code
      | .closing, level :: outer => do
        let code ← closeFolded (moveCode f code) level
        advance
        if single ∧ outer.isEmpty then return code.reverse else codeFor single fuel outer code
      | _, _ => do
        codeFor single fuel (levels.map (Level.move f)) ((← instr) :: moveCode f code)) := by
  have hinstr : Alike f (n + levels.length + 1) (n + 1) (moveCode f)
      (do codeFor single fuel levels ((← instr) :: code))
      (do codeFor single fuel (levels.map (Level.move f)) ((← instr) :: moveCode f code)) :=
    alike_instr.bind fun i => ih levels (i :: code)
  match t, levels with
  | .opening, levels =>
    refine alikeAt_opening (alike_openFolded fun levels' code' hlength => ?_)
    have := ih levels' code'
    rwa [hlength, ← Nat.add_assoc] at this
  | .closing, level :: outer =>
    refine alikeAt_closeFolded fun code => ?_
    rw [List.isEmpty_map]
    refine .ite (fun hend => ?_) fun _ => ih outer code
    obtain rfl := List.isEmpty_iff.1 hend.2
    exact .pure List.map_reverse.symm
  | .closing, [] => exact hinstr.at
  | .bytes _, _ | .name _, _ | .word _, _ | .reserved, _ | .broken _, _ | .finish, _ =>
    exact hinstr.at

end Code

theorem alike_codeFor (single : Bool) (fuel : Nat) (levels : List Level) (code : List Instr) :
    Alike f (n + levels.length + 1) (n + 1) (moveCode f) (codeFor single fuel levels code)
      (codeFor single fuel (levels.map (Level.move f)) (moveCode f code)) := by
  induction fuel generalizing levels code with
  | zero => exact alike_stop _
  | succ fuel ih =>
    rw [codeFor, codeFor]
    refine alike_token fun t => ?_
    have hstep := alikeAt_codeStep ih t levels code
    cases levels with
    | nil => exact .ite (fun _ => Alike.at (.pure List.map_reverse.symm)) fun _ => hstep
    | cons level outer =>
      cases level with
      | ends _ | arm => exact hstep
      | condition _ | afterFirst | afterBoth =>
        exact .ite (fun _ => (alike_stop_bind _ _ _).at) fun _ => hstep

theorem alike_code : Alike f (n + 1) (n + 1) (moveCode f) code code := by
  refine alike_get fun ts us hi => ?_
  rw [hi.length_eq]
  exact alike_codeFor false _ [] []

theorem alike_foldedCode : Alike f (n + 1) (n + 1) (moveCode f) foldedCode foldedCode := by
  refine alike_token fun t => .ite (fun _ => Alike.at ?_) fun _ => (alike_stop _).at
  refine alike_get fun ts us hi => ?_
  rw [hi.length_eq]
  exact alike_codeFor true _ [] []

end Instructions

/-! ## Fields -/

section Fields

variable {n : Nat}

/-- Is the next form one that exports what it stands in? -/
def exportsNext : List Token → Bool
  | .opening :: .word w :: .bytes _ :: .closing :: _ => String.ofList w = "export"
  | _ => false

def importsNext : List Token → Bool
  | .opening :: .word w :: .bytes _ :: .bytes _ :: .closing :: _ => String.ofList w = "import"
  | _ => false

theorem inlineExports_succ (fuel : Nat) :
    inlineExports (fuel + 1) = do
      if exportsNext ((← get).map (·.token)) then
        return (← form "export" text) :: (← inlineExports fuel)
      else return [] := by
  rw [inlineExports]
  refine bind_congr fun ts => ?_
  split
  · simp [exportsNext]
  · rename_i hne
    have hno : exportsNext (ts.map (·.token)) = false := by
      unfold exportsNext
      split
      · rename_i w _ _ hts
        simp only [List.map_eq_cons_iff] at hts
        obtain ⟨⟨_, p⟩, _, rfl, rfl, ⟨_, q⟩, _, rfl, rfl, ⟨_, r⟩, _, rfl, rfl, ⟨_, s⟩, rest, rfl,
          rfl, -⟩ := hts
        exact absurd rfl (hne p w q _ r s rest)
      · rfl
    simp [hno]

theorem inlineImport?_eq :
    inlineImport? = do
      if importsNext ((← get).map (·.token)) then
        return some (← form "import" do return (← text, ← text))
      else return none := by
  rw [inlineImport?]
  refine bind_congr fun ts => ?_
  split
  · simp [importsNext]
  · rename_i hne
    have hno : importsNext (ts.map (·.token)) = false := by
      unfold importsNext
      split
      · rename_i w _ _ _ hts
        simp only [List.map_eq_cons_iff] at hts
        obtain ⟨⟨_, p⟩, _, rfl, rfl, ⟨_, q⟩, _, rfl, rfl, ⟨_, r⟩, _, rfl, rfl, ⟨_, s⟩, _, rfl, rfl,
          ⟨_, u⟩, rest, rfl, rfl, -⟩ := hts
        exact absurd rfl (hne p w q _ r _ s u rest)
      · rfl
    simp [hno]

theorem alike_inlineExports (fuel : Nat) :
    Alike f (n + 1) (n + 1) id (inlineExports fuel) (inlineExports fuel) := by
  induction fuel with
  | zero => exact .same []
  | succ fuel ih =>
    rw [inlineExports_succ]
    refine alike_get fun ts us hi => ?_
    rw [hi.map_token]
    exact .ite (fun _ => (alike_form _ alike_text).seq fun _ => ih.seq fun _ => .same _)
      fun _ => .same []

theorem alike_inlineImport? : Alike f (n + 1) (n + 1) id inlineImport? inlineImport? := by
  rw [inlineImport?_eq]
  refine alike_get fun ts us hi => ?_
  rw [hi.map_token]
  refine .ite (fun _ => Alike.seq ?_ fun _ => .same _) fun _ => .same none
  exact alike_form _ (alike_text.seq fun _ => alike_text.seq fun _ => .same _)

theorem alike_tableType : Alike f (n + 1) (n + 1) id tableType tableType :=
  alike_limits.seq fun _ => alike_refType.seq fun _ => .same _

theorem alike_offset : Alike f (n + 1) (n + 1) (moveCode f) offset offset :=
  (alike_isForm _).seq fun _ => .ite (fun _ => alike_form _ alike_code) fun _ => alike_foldedCode

theorem alike_itemCode : Alike f (n + 1) (n + 1) (moveCode f) itemCode itemCode :=
  (alike_isForm _).seq fun _ => .ite (fun _ => alike_form _ alike_code) fun _ => alike_foldedCode

theorem alike_elementItems :
    Alike f (n + 1) (n + 1) (Items.move f) elementItems elementItems := by
  have hrefs : Alike f (n + 1) (n + 1) (Items.move f) (do return .refs (← toEnd ref))
      (do return .refs (← toEnd ref)) :=
    (alike_toEnd alike_ref).bind fun _ => .pure rfl
  refine alike_isWord ?_ ?_
  · exact alikeAt_advance rfl hrefs
  · exact alike_isRefType.seq fun _ => .ite (fun _ => alike_refType.seq fun _ =>
      (alike_toEnd alike_itemCode).bind fun _ => .pure rfl) fun _ => hrefs

theorem alike_target (w : String) : Alike f (n + 1) (n + 1) (Ref.move f) (target w) (target w) :=
  alike_isInteger.seq fun _ => .ite (fun _ => (alike_number _ _).seq fun _ => .pure rfl) fun _ =>
    (alike_isForm _).seq fun _ => .ite (fun _ => alike_form _ alike_ref) fun _ => .pure rfl

theorem alike_elementMode : Alike f (n + 1) (n + 1) (Mode.move f) elementMode elementMode := by
  refine alike_isWord ?_ ?_
  · exact alikeAt_advance rfl (.pure rfl)
  · refine alike_isInteger.seq fun _ => alike_token fun _ => .ite (fun _ => Alike.at ?_)
      fun _ => Alike.at (.pure rfl)
    exact (alike_target _).bind fun _ => alike_offset.bind fun _ => .pure rfl

theorem alike_dataMode : Alike f (n + 1) (n + 1) (Mode.move f) dataMode dataMode := by
  have hactive : Alike f (n + 1) (n + 1) (Mode.move f)
      (do return .active (← target "memory") (← offset))
      (do return .active (← target "memory") (← offset)) :=
    (alike_target _).bind fun _ => alike_offset.bind fun _ => .pure rfl
  refine alike_token fun t => ?_
  cases t with
  | bytes _ | closing => exact Alike.at (.pure rfl)
  | _ => exact hactive.at

theorem alike_wanted :
    Alike f (n + 1) (n + 1) (Prod.map (Option.map (Id.move f)) (Wanted.move f)) wanted wanted := by
  refine alike_isWord ?_ <| alike_isWord ?_ <| alike_isWord ?_ <| alike_isWord ?_ <| alike_stop _
  all_goals refine alikeAt_advance rfl ?_
  · exact alike_id?.bind fun _ => (alike_typeUse true).bind fun _ => .pure rfl
  · exact alike_id?.bind fun _ => alike_tableType.seq fun (_, _) => .pure rfl
  · exact alike_id?.bind fun _ => alike_limits.seq fun _ => .pure rfl
  · exact alike_id?.bind fun _ => alike_globalType.seq fun (_, _) => .pure rfl

/-- A table that is filled where it stands. -/
theorem alike_filledTable (id : Option Id) (place : Nat) (exports : List String) :
    Alike f (n + 1) (n + 1) (Field.move f)
      (do
        let type ← refType
        let items ← form "elem" do
          if (← token) = .opening then return Items.expressions type (← toEnd itemCode)
          else return Items.refs (← toEnd ref)
        let n := match items with
          | .refs rs => rs.length
          | .expressions _ cs => cs.length
        return { id, place, exports, content := .table type ⟨n, some n⟩
                 segment := some (.inr items) })
      (do
        let type ← refType
        let items ← form "elem" do
          if (← token) = .opening then return Items.expressions type (← toEnd itemCode)
          else return Items.refs (← toEnd ref)
        let n := match items with
          | .refs rs => rs.length
          | .expressions _ cs => cs.length
        return { id := id.map (Id.move f), place := f place, exports
                 content := .table type ⟨n, some n⟩, segment := some (.inr items) }) := by
  refine alike_refType.seq fun type => Alike.bind (g := Items.move f) (alike_form _ ?_) ?_
  · refine alike_token fun _ => .ite (fun _ => Alike.at ?_) fun _ => Alike.at ?_
    · exact (alike_toEnd alike_itemCode).bind fun _ => .pure rfl
    · exact (alike_toEnd alike_ref).bind fun _ => .pure rfl
  · intro items
    cases items <;> exact .pure (by simp [Field.move, Content.move, Items.move])

theorem alike_definition (w : String) (id : Option Id) (place : Nat) :
    Alike f (n + 1) (n + 1) (Field.move f) (definition w id place)
      (definition w (id.map (Id.move f)) (f place)) := by
  refine alike_get fun ts us hi => ?_
  rw [hi.length_eq]
  refine (alike_inlineExports _).seq fun exports => alike_inlineImport?.seq fun names => ?_
  split
  · exact (alike_typeUse true).bind fun _ => .pure rfl
  · refine (alike_typeUse true).bind fun _ => Alike.bind
      (alike_repeatWhile (alike_isForm _) (alike_form _ (alike_typedNames true))) fun locals => ?_
    exact alike_code.bind fun _ => .pure (by simp [Field.move, Content.move, moveNamed_flatten])
  · exact alike_tableType.seq fun (_, _) => .pure rfl
  · refine alike_isRefType.seq fun _ =>
      .ite (fun _ => alike_filledTable id place exports) fun _ => ?_
    exact alike_tableType.seq fun (_, _) => .pure rfl
  · exact alike_limits.seq fun _ => .pure rfl
  · refine (alike_isForm _).seq fun _ => .ite (fun _ => ?_) fun _ => ?_
    · refine (alike_form _ (alike_toEnd alike_bytes)).bind fun content => .pure ?_
      simp [Field.move, Content.move]
    · exact alike_limits.seq fun _ => .pure rfl
  · exact alike_globalType.seq fun (_, _) => .pure rfl
  · exact alike_globalType.seq fun (_, _) => alike_code.bind fun _ => .pure rfl

theorem alike_field : Alike f (n + 1) (n + 1) (Field.move f) field field := by
  refine alike_parens (alike_here fun place => alike_token fun t => ?_)
  cases t with
  | word w =>
    have hnamed (name : String) : AlikeAt f (.word w) (n + 2) (n + 2) (Field.move f)
        (do
          advance
          let id ← id?
          definition name id place)
        (do
          advance
          let id ← id?
          definition name id (f place)) := by
      refine alikeAt_advance rfl ?_
      exact alike_id?.bind fun id => alike_definition name id place
    dsimp only
    split
    case h_3 | h_4 | h_5 | h_6 => exact hnamed _
    case h_11 => exact (alike_stop _).at
    all_goals refine alikeAt_advance rfl ?_
    · refine alike_id?.bind fun _ => Alike.bind (alike_form _ (alike_signature? true)) fun s => ?_
      cases s <;> exact .pure rfl
    · exact alike_text.seq fun _ => alike_text.seq fun _ =>
        (alike_parens alike_wanted).bind fun (_, _) => .pure rfl
    · refine alike_text.seq fun _ => Alike.bind (g := Prod.map id (Ref.move f)) (alike_parens ?_)
        fun (_, _) => .pure rfl
      exact (alike_reading _ _).seq fun _ => alike_ref.bind fun _ => .pure rfl
    · exact alike_ref.bind fun _ => .pure rfl
    · exact alike_id?.bind fun _ => alike_elementMode.bind fun _ => alike_elementItems.bind
        fun _ => .pure rfl
    · exact alike_id?.bind fun _ => alike_dataMode.bind fun _ => (alike_toEnd alike_bytes).bind
        fun _ => .pure (by simp [Field.move, Content.move])
  | _ => exact (alike_stop _).at

end Fields

/-! ## The module -/

section Module

variable {n : Nat}

/-- What stands between the parentheses of a module. -/
def moduleContent : Parser Source := do
  word "module"
  let id ← id?
  if ← isWord "binary" then
    advance
    return Source.binary (← toEnd bytes).flatten
  else return Source.fields id (← toEnd field)

/-- A module form behind its opening parenthesis. -/
def moduleRest : Parser Source := do
  let found ← moduleContent
  expect .closing .expectedClosing
  return found

/-- What is checked behind the module. -/
def checked (found : Source) : Parser Source := do
  match found with
  | .fields _ fields =>
    if 1 < (fields.filter fun f => f.content matches .start _).length then
      stop .manyStarts
  | .binary _ => pure ()
  if (← token) = .finish then return found else stop .extraTokens

theorem source_module (p w : Nat) (ts : List Placed) :
    source (⟨.opening, p⟩ :: ⟨.word "module".toList, w⟩ :: ts) =
      (moduleRest >>= checked) (⟨.word "module".toList, w⟩ :: ts) := by
  rfl

theorem alike_moduleContent :
    Alike f (n + 1) (n + 1) (Source.move f) moduleContent moduleContent := by
  refine (alike_word _).seq fun _ => alike_id?.bind fun _ => alike_isWord ?_ ?_
  · refine alikeAt_advance rfl ?_
    exact (alike_toEnd alike_bytes).bind fun _ => .pure (by simp [Source.move])
  · exact (alike_toEnd alike_field).bind fun _ => .pure rfl

theorem alike_moduleRest : Alike f (n + 1) n (Source.move f) moduleRest moduleRest :=
  alike_moduleContent.bind fun _ => alike_closing.seq fun _ => .pure rfl

/-- What is read of both texts, or the mistake in both; a second start field only shows behind the
module, where they end. -/
inductive MovedModule (f : Nat → Nat) (e e' : Nat) :
    Except Mistake (Source × List Placed) → Except Mistake (Source × List Placed) → Prop
  | ok (s : Source) : MovedModule f e e' (.ok (s, [⟨.finish, e⟩])) (.ok (s.move f, [⟨.finish, e'⟩]))
  | error (m : Mistake) : MovedModule f e e' (.error m) (.error (m.move f))
  | starts : MovedModule f e e' (.error ⟨.manyStarts, e⟩) (.error ⟨.manyStarts, e'⟩)

theorem Content.isStart_move (c : Content) :
    (c.move f matches .start _) = (c matches .start _) := by
  cases c <;> rfl

theorem checked_moved (e e' : Nat) (s : Source) :
    MovedModule f e e' (checked s [⟨.finish, e⟩]) (checked (s.move f) [⟨.finish, e'⟩]) := by
  cases s with
  | binary bytes => exact .ok (.binary bytes)
  | fields id fields =>
    have hcount : ((fields.map (Field.move f)).filter fun f => f.content matches .start _).length =
        (fields.filter fun f => f.content matches .start _).length := by
      rw [List.filter_map, List.length_map]
      congr 2
      funext field
      exact Content.isStart_move field.content
    unfold checked
    simp only [Source.move, hcount]
    split
    · exact .starts
    · exact .ok (.fields id fields)

/-- A text that is one module is read alike wherever its tokens stand. -/
theorem source_moved {e e' p w : Nat} {ts us : List Placed} (h : Inside f e e' 1 ts us) :
    MovedModule f e e' (source (⟨.opening, p⟩ :: ⟨.word "module".toList, w⟩ :: ts))
      (source (⟨.opening, f p⟩ :: ⟨.word "module".toList, f w⟩ :: us)) := by
  rw [source_module, source_module]
  have hread := alike_moduleRest e e' _ _
    (.content (t := .word "module".toList) w rfl h)
  simp only [Bind.bind, StateT.bind]
  generalize moduleRest _ = x at hread
  generalize moduleRest _ = y at hread
  cases hread with
  | ok s hrest =>
    cases hrest
    exact checked_moved e e' s
  | error m => exact .error m

end Module

end Parser

end ScriptHost.Wasm.Text

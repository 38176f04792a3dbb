import ScriptHost.Proofs.Lua.Renamed

/-!
# Operations and library functions on renamed stores

On stores that differ by a renaming, operators go on alike (`Store.Renamed.arithmetic` and those
after it), and arguments are read alike (`Agree`). A computation of a library is another one
renamed (`Native.Renamed`) if both do the same to such stores and go on alike with whatever comes
back. The lemmas at the end say this of the ways in which the libraries put computations together.
-/

namespace ScriptHost.Lua

def Fault.rename (ρ : Renaming) : Fault → Fault
  | argument position reason => argument position reason
  | message text level => message text level
  | value v => value (v.rename ρ)

def Operated.rename (ρ : Renaming) : Operated → Operated
  | value v => value (v.rename ρ)
  | call f args => call (f.rename ρ) (args.map (Value.rename ρ))
  | fault f => fault (f.rename ρ)

/-- What a call that is watched came to, renamed. -/
def renameResult (ρ : Renaming) : Except Value (List Value) → Except Value (List Value)
  | .ok vs => .ok (vs.map (Value.rename ρ))
  | .error e => .error (e.rename ρ)

variable {ρ : Renaming} {s t : Store}

/-! ## Operations -/

namespace Store.Renamed

theorem cannot (h : s.Renamed ρ t) (what : Bytes) (v : Value) (origin : Option Origin) :
    t.cannot what (v.rename ρ) origin = s.cannot what v origin := by
  rw [Store.cannot, Store.cannot, h.typeName]

theorem handler (h : s.Renamed ρ t) (name : Bytes) (a b : Value) :
    t.handler name (a.rename ρ) (b.rename ρ) = (s.handler name a b).rename ρ := by
  rw [Store.handler, Store.handler, h.event, h.event]
  cases s.event a name <;> rfl

theorem withoutNumbers (h : s.Renamed ρ t) (op : Arithmetic) (a b : Value)
    (left right : Option Origin) :
    t.withoutNumbers op (a.rename ρ) (b.rename ρ) left right =
      (s.withoutNumbers op a b left right).rename ρ := by
  simp only [Store.withoutNumbers, h.handler, h.cannot, Value.isNumber_rename, Value.int?_rename]
  cases s.handler (Bytes.ofString ("__" ++ op.name)) a b with
  | nil =>
    simp only [Value.rename_nil]
    split
    · split
      · rfl
      · split <;> rfl
    · split <;> rfl
  | _ => rfl

theorem operands?_rename (op : Arithmetic) (a b : Value) :
    op.operands? (a.rename ρ) (b.rename ρ) = op.operands? a b := by
  cases a <;> cases b <;> rfl

/-- Where numbers cannot be computed with, a message says so. -/
theorem compute_error (op : Arithmetic) (x y : Number) {e : Fault}
    (he : op.compute x y = .error e) : ∃ text, e = .here text := by
  cases op with
  | add | sub | mul => cases x <;> cases y <;> cases he
  | div | pow => cases he
  | unm => cases x <;> cases he
  | mod | idiv =>
    unfold Arithmetic.compute at he
    dsimp only at he
    split at he
    · cases he
      exact ⟨_, rfl⟩
    · cases he
    · cases he
  | band | bor | bxor | shl | shr | bnot =>
    unfold Arithmetic.compute at he
    dsimp only at he
    split at he
    · cases he
    · cases he
      exact ⟨_, rfl⟩

theorem arithmetic (h : s.Renamed ρ t) (op : Arithmetic) (a b : Value)
    (left right : Option Origin) :
    t.arithmetic op (a.rename ρ) (b.rename ρ) left right =
      (s.arithmetic op a b left right).rename ρ := by
  rw [Store.arithmetic, Store.arithmetic, operands?_rename, h.withoutNumbers]
  split
  · split
    · rfl
    · rename_i he
      split
      · rfl
      · obtain ⟨text, rfl⟩ := compute_error op _ _ he
        rfl
  · rfl

theorem concat (h : s.Renamed ρ t) (a b : Value) (left right : Option Origin) :
    t.concat (a.rename ρ) (b.rename ρ) left right = (s.concat a b left right).rename ρ := by
  simp only [Store.concat, Value.text?_rename, h.handler, h.cannot]
  split
  · rfl
  · cases s.handler "__concat" a b with
    | nil =>
      simp only [Value.rename_nil]
      split <;> rfl
    | _ => rfl

theorem length (h : s.Renamed ρ t) (v : Value) (origin : Option Origin) :
    t.length (v.rename ρ) origin = (s.length v origin).rename ρ := by
  have he := h.event v "__len"
  have hc := h.cannot "get length of" v origin
  cases v with
  | string _ => rfl
  | table a =>
    simp only [Value.rename_table] at he
    simp only [Value.rename_table, Store.length, he, h.table, Table.length_rename]
    cases s.event (.table a) "__len" <;> rfl
  | _ =>
    simp only [Value.rename] at he hc
    simp only [Value.rename, Store.length, he, hc]
    cases s.event _ "__len" <;> rfl

theorem equal (h : s.Renamed ρ t) (a b : Value) :
    t.equal (a.rename ρ) (b.rename ρ) = (s.equal a b).rename ρ := by
  have hh := h.handler "__eq" a b
  unfold Store.equal
  rw [Value.rawEquals_rename]
  split
  · rfl
  · cases a with
    | table x =>
      cases b with
      | table y =>
        simp only [Value.rename_table] at hh
        simp only [Value.rename_table, hh]
        cases s.handler "__eq" (.table x) (.table y) <;> rfl
      | _ => rfl
    | _ => rfl

theorem withoutOrder (h : s.Renamed ρ t) (orEqual : Bool) (a b : Value) :
    t.withoutOrder orEqual (a.rename ρ) (b.rename ρ) = (s.withoutOrder orEqual a b).rename ρ := by
  simp only [Store.withoutOrder, h.handler, h.typeName]
  cases s.handler (if orEqual then "__le" else "__lt") a b <;> rfl

theorem ordered (h : s.Renamed ρ t) (orEqual : Bool) (a b : Value) :
    t.ordered orEqual (a.rename ρ) (b.rename ρ) = (s.ordered orEqual a b).rename ρ := by
  have hw := h.withoutOrder orEqual a b
  cases a with
  | number _ | string _ => cases b <;> first | rfl | exact hw
  | _ => exact hw

end Store.Renamed

/-- Choices by one condition are related if what is chosen is, either way. -/
theorem ite_related {α β : Type} {R : α → β → Prop} {c : Prop} [Decidable c] {x x' : α} {y y' : β}
    (h : c → R x y) (h' : ¬c → R x' y') : R (if c then x else x') (if c then y else y') := by
  by_cases hc : c
  · rw [if_pos hc, if_pos hc]
    exact h hc
  · rw [if_neg hc, if_neg hc]
    exact h' hc

/-! ## Arguments -/

/-- Both give related results, or both fail with the same fault, renamed. -/
inductive Agree {α β : Type} (ρ : Renaming) (R : α → β → Prop) :
    Except Fault α → Except Fault β → Prop where
  | ok {a : α} {b : β} (h : R a b) : Agree ρ R (.ok a) (.ok b)
  | error {e f : Fault} (h : f = e.rename ρ) : Agree ρ R (.error e) (.error f)

namespace Agree

variable {α β γ δ : Type} {R : α → β → Prop} {S : γ → δ → Prop}

theorem bind {x : Except Fault α} {y : Except Fault β} {k : α → Except Fault γ}
    {l : β → Except Fault δ} (h : Agree ρ R x y) (hk : ∀ a b, R a b → Agree ρ S (k a) (l b)) :
    Agree ρ S (x >>= k) (y >>= l) := by
  cases h with
  | ok h => exact hk _ _ h
  | error h => exact .error h

/-- Goes on with one and the same result. -/
theorem bindEq {x y : Except Fault α} {k : α → Except Fault γ} {l : α → Except Fault δ}
    (h : Agree ρ (· = ·) x y) (hk : ∀ a, Agree ρ S (k a) (l a)) :
    Agree ρ S (x >>= k) (y >>= l) :=
  h.bind fun a _ he => he ▸ hk a

theorem mapM {f g : β → Except Fault α} (h : ∀ b, Agree ρ (· = ·) (f b) (g b)) (bs : List β) :
    Agree ρ (· = ·) (bs.mapM f) (bs.mapM g) := by
  induction bs with
  | nil => exact .ok rfl
  | cons b rest ih =>
    rw [List.mapM_cons, List.mapM_cons]
    exact (h b).bindEq fun a => ih.bindEq fun as => .ok rfl

theorem foldlM {f g : α → β → Except Fault α} (h : ∀ a b, Agree ρ (· = ·) (f a b) (g a b))
    (bs : List β) (a : α) : Agree ρ (· = ·) (bs.foldlM f a) (bs.foldlM g a) := by
  induction bs generalizing a with
  | nil => exact .ok rfl
  | cons b rest ih => exact (h a b).bindEq ih

theorem mapEq {x y : Except Fault α} (h : Agree ρ (· = ·) x y) (f : α → γ) :
    Agree ρ (· = ·) (x.map f) (y.map f) := by
  cases h with
  | ok h => exact .ok (congrArg f h)
  | error h => exact .error h

theorem ite {c : Prop} [Decidable c] {x x' : Except Fault α} {y y' : Except Fault β}
    (h : c → Agree ρ R x y) (h' : ¬c → Agree ρ R x' y') :
    Agree ρ R (if c then x else x') (if c then y else y') :=
  ite_related h h'

end Agree

namespace Args

variable (args : Args) (i : Nat)

@[simp]
theorem get?_rename : get? (args.map (Value.rename ρ)) i = (get? args i).map (Value.rename ρ) :=
  List.getElem?_map

@[simp]
theorem value_rename : value (args.map (Value.rename ρ)) i = (value args i).rename ρ := by
  rw [value, value, get?_rename]
  cases get? args i <;> rfl

@[simp]
theorem isNone_rename : isNone (args.map (Value.rename ρ)) i = isNone args i := by
  rw [isNone, isNone, get?_rename, Option.isNone_map]

@[simp]
theorem isNoneOrNil_rename : isNoneOrNil (args.map (Value.rename ρ)) i = isNoneOrNil args i := by
  rw [isNoneOrNil, isNoneOrNil, value_rename, Value.isNil_rename]

end Args

namespace Store.Renamed

variable {α β : Type} {R : α → β → Prop} (args : Args) (i : Nat)

theorem argumentType (h : s.Renamed ρ t) :
    Args.typeName t (args.map (Value.rename ρ)) i = Args.typeName s args i := by
  rw [Args.typeName, Args.typeName, Args.get?_rename]
  cases Args.get? args i with
  | none => rfl
  | some v =>
    have hv := h.typeName v
    cases v with
    | null => rfl
    | _ => exact hv

theorem wrongType (h : s.Renamed ρ t) (expected : Bytes) :
    Agree ρ R (Args.wrongType s args i expected)
      (Args.wrongType t (args.map (Value.rename ρ)) i expected) := by
  rw [Args.wrongType, Args.wrongType, h.argumentType]
  exact .error rfl

theorem anyArgument :
    Agree ρ (fun v w => w = v.rename ρ) (Args.any args i)
      (Args.any (args.map (Value.rename ρ)) i) := by
  rw [Args.any, Args.any, Args.get?_rename]
  cases Args.get? args i with
  | none => exact .error rfl
  | some v => exact .ok rfl

theorem tableArgument (h : s.Renamed ρ t) :
    Agree ρ (fun a b => b = ρ.tables a) (Args.table s args i)
      (Args.table t (args.map (Value.rename ρ)) i) := by
  rw [Args.table, Args.table, Args.value_rename]
  cases Args.value args i with
  | table a => exact .ok rfl
  | _ => exact h.wrongType args i "table"

theorem functionArgument (h : s.Renamed ρ t) :
    Agree ρ (fun v w => w = v.rename ρ) (Args.function s args i)
      (Args.function t (args.map (Value.rename ρ)) i) := by
  rw [Args.function, Args.function, Args.value_rename]
  cases Args.value args i with
  | closure _ | builtin _ => exact .ok rfl
  | _ => exact h.wrongType args i "function"

theorem threadArgument (h : s.Renamed ρ t) :
    Agree ρ (fun a b => b = ρ.threads a) (Args.thread s args i)
      (Args.thread t (args.map (Value.rename ρ)) i) := by
  rw [Args.thread, Args.thread, Args.value_rename]
  cases Args.value args i with
  | thread a => exact .ok rfl
  | _ => exact h.wrongType args i "coroutine"

theorem numberArgument (h : s.Renamed ρ t) :
    Agree ρ (· = ·) (Args.number s args i) (Args.number t (args.map (Value.rename ρ)) i) := by
  rw [Args.number, Args.number, Args.value_rename, Value.number?_rename]
  split
  · exact .ok rfl
  · exact h.wrongType args i "number"

theorem intArgument (h : s.Renamed ρ t) :
    Agree ρ (· = ·) (Args.int s args i) (Args.int t (args.map (Value.rename ρ)) i) := by
  rw [Args.int, Args.int, Args.value_rename, Value.number?_rename]
  split
  · split
    · exact .ok rfl
    · exact .error rfl
  · exact h.wrongType args i "number"

theorem floatArgument (h : s.Renamed ρ t) :
    Agree ρ (· = ·) (Args.float s args i) (Args.float t (args.map (Value.rename ρ)) i) := by
  rw [Args.float, Args.float]
  exact (h.numberArgument args i).mapEq _

theorem textArgument (h : s.Renamed ρ t) :
    Agree ρ (· = ·) (Args.text s args i) (Args.text t (args.map (Value.rename ρ)) i) := by
  rw [Args.text, Args.text, Args.value_rename, Value.text?_rename]
  split
  · exact .ok rfl
  · exact h.wrongType args i "string"

theorem intOrArgument (h : s.Renamed ρ t) (default : Int64) :
    Agree ρ (· = ·) (Args.intOr s args i default)
      (Args.intOr t (args.map (Value.rename ρ)) i default) := by
  rw [Args.intOr, Args.intOr, Args.isNoneOrNil_rename]
  exact .ite (fun _ => .ok rfl) fun _ => h.intArgument args i

theorem textOrArgument (h : s.Renamed ρ t) (default : Bytes) :
    Agree ρ (· = ·) (Args.textOr s args i default)
      (Args.textOr t (args.map (Value.rename ρ)) i default) := by
  rw [Args.textOr, Args.textOr, Args.isNoneOrNil_rename]
  exact .ite (fun _ => .ok rfl) fun _ => h.textArgument args i

end Store.Renamed

/-! ## Computations -/

/-- Both computations do the same to stores that differ by the renaming. -/
inductive Native.Renamed (ρ : Renaming) : Native → Native → Prop where
  | done {s t : Store} {vs ws : List Value} (h : s.Renamed ρ t)
      (hv : ws = vs.map (Value.rename ρ)) : Native.Renamed ρ (.done s vs) (.done t ws)
  | fail {s t : Store} {e f : Fault} (h : s.Renamed ρ t) (he : f = e.rename ρ) :
      Native.Renamed ρ (.fail s e) (.fail t f)
  | call {s t : Store} {f g : Value} {vs ws : List Value} {next other : Store → List Value → Native}
      (h : s.Renamed ρ t) (hf : g = f.rename ρ) (hv : ws = vs.map (Value.rename ρ))
      (hn : ∀ {s t : Store}, s.Renamed ρ t → ∀ vs,
        Native.Renamed ρ (next s vs) (other t (vs.map (Value.rename ρ)))) :
      Native.Renamed ρ (.call s f vs next) (.call t g ws other)
  | attempt {s t : Store} {f g : Value} {vs ws : List Value} {handler handler' : Option Value}
      {next other : Store → Except Value (List Value) → Native}
      (h : s.Renamed ρ t) (hf : g = f.rename ρ) (hv : ws = vs.map (Value.rename ρ))
      (hh : handler' = handler.map (Value.rename ρ))
      (hn : ∀ {s t : Store}, s.Renamed ρ t → ∀ r,
        Native.Renamed ρ (next s r) (other t (renameResult ρ r))) :
      Native.Renamed ρ (.attempt s f vs handler next) (.attempt t g ws handler' other)
  | resume {s t : Store} {a b : Nat} {vs ws : List Value}
      {next other : Store → Except Value (List Value) → Native}
      (h : s.Renamed ρ t) (ha : b = ρ.threads a) (hv : ws = vs.map (Value.rename ρ))
      (hn : ∀ {s t : Store}, s.Renamed ρ t → ∀ r,
        Native.Renamed ρ (next s r) (other t (renameResult ρ r))) :
      Native.Renamed ρ (.resume s a vs next) (.resume t b ws other)
  | yield {s t : Store} {vs ws : List Value} (h : s.Renamed ρ t)
      (hv : ws = vs.map (Value.rename ρ)) : Native.Renamed ρ (.yield s vs) (.yield t ws)
  | canYield {s t : Store} {next other : Bool → Native} (h : s.Renamed ρ t)
      (hn : ∀ can, Native.Renamed ρ (next can) (other can)) :
      Native.Renamed ρ (.canYield s next) (.canYield t other)

/-- A store and results, renamed. -/
def Results (ρ : Renaming) (x y : Store × List Value) : Prop :=
  x.1.Renamed ρ y.1 ∧ y.2 = x.2.map (Value.rename ρ)

theorem Agree.done {vs ws : List Value} (h : s.Renamed ρ t) (hv : ws = vs.map (Value.rename ρ)) :
    Agree ρ (Results ρ) (.ok (s, vs)) (.ok (t, ws)) :=
  .ok ⟨h, hv⟩

namespace Native.Renamed

theorem reading {α β : Type} {R : α → β → Prop} {x : Except Fault α} {y : Except Fault β}
    {next : α → Native} {other : β → Native} (h : s.Renamed ρ t) (ha : Agree ρ R x y)
    (hn : ∀ a b, R a b → (next a).Renamed ρ (other b)) :
    (Native.reading s x next).Renamed ρ (Native.reading t y other) := by
  cases ha with
  | ok hr => exact hn _ _ hr
  | error he => exact .fail h he

/-- Goes on with one and the same reading. -/
theorem readingEq {α : Type} {x y : Except Fault α} {next other : α → Native}
    (h : s.Renamed ρ t) (ha : Agree ρ (· = ·) x y)
    (hn : ∀ a, (next a).Renamed ρ (other a)) :
    (Native.reading s x next).Renamed ρ (Native.reading t y other) :=
  reading h ha fun a _ he => he ▸ hn a

theorem ofPlain {f g : Plain} {args args' : Args} (h : s.Renamed ρ t)
    (ha : Agree ρ (Results ρ) (f s args) (g t args')) :
    (Native.ofPlain f s args).Renamed ρ (Native.ofPlain g t args') := by
  rw [Native.ofPlain, Native.ofPlain]
  generalize f s args = x at ha ⊢
  generalize g t args' = y at ha ⊢
  cases ha with
  | ok hr => exact .done hr.1 hr.2
  | error he => exact .fail h he

theorem ite {c : Prop} [Decidable c] {m m' n n' : Native} (h : c → m.Renamed ρ n)
    (h' : ¬c → m'.Renamed ρ n') :
    (if c then m else m').Renamed ρ (if c then n else n') :=
  ite_related h h'

theorem withText (h : s.Renamed ρ t) (v : Value) {next other : Store → Bytes → Native}
    (hn : ∀ {s t : Store}, s.Renamed ρ t → ∀ text, (next s text).Renamed ρ (other t text)) :
    (Native.withText s v next).Renamed ρ (Native.withText t (v.rename ρ) other) := by
  rw [Native.withText, Native.withText, h.event]
  cases s.event v "__tostring" with
  | nil =>
    rw [Value.rename_nil, h.plainText]
    exact hn h _
  | _ =>
    refine .call h rfl rfl fun h vs => ?_
    rw [Value.headD_rename, Value.text?_rename]
    split
    · exact hn h _
    · exact .fail h rfl

theorem withItem (h : s.Renamed ρ t) {object object' key key' : Value}
    {next other : Store → Value → Native} (ho : object' = object.rename ρ)
    (hk : key' = key.rename ρ)
    (hn : ∀ {s t : Store}, s.Renamed ρ t → ∀ v, (next s v).Renamed ρ (other t (v.rename ρ))) :
    (Native.withItem s object key next).Renamed ρ (Native.withItem t object' key' other) := by
  subst ho hk
  rw [Native.withItem, Native.withItem, h.lookup]
  cases s.lookup key Store.maxChain object with
  | value v => exact hn h v
  | call f args =>
    refine .call h rfl rfl fun h vs => ?_
    rw [Value.headD_rename]
    exact hn h _
  | noFields object =>
    refine .fail h ?_
    rw [h.typeName]
    rfl
  | loop => exact .fail h rfl

end Native.Renamed

end ScriptHost.Lua

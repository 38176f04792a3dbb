import ScriptHost.Proofs.Rhai.Imports

/-!
# Scripts that do not see what was loaded

The modules that earlier runs have loaded stay with the interpreter. A script that imports none of
them, neither by itself nor through the modules that it imports, runs as if they were not there: it
comes to the same end, and what is loaded in the end is what it would have loaded, in front of what
was there before (`Script.run_behind`).
-/

namespace ScriptHost.Rhai

/-! ## What may be imported -/

/-- The file of the module at a path. -/
def moduleFile (path : String) : String :=
  (if (Path.extension? path).isSome then
    String.ofList (path.toList.take (path.length - ((Path.extension? path).getD "").length - 1))
    else path) ++ ".rhai"

/-- May something be imported where only some files may be? What is known only when the script runs
may be any file. -/
def Allows (P : String → Prop) : Option String → Prop
  | some path => P (moduleFile path)
  | none => ∀ file, P file

/-- The imports ask for nothing but files that may be imported. -/
def Within (P : String → Prop) (imports : List (Option String)) : Prop := ∀ i ∈ imports, Allows P i

section

variable {P : String → Prop} {a b : List (Option String)} {i : Option String}

theorem within_append : Within P (a ++ b) ↔ Within P a ∧ Within P b := List.forall_mem_append

theorem within_cons : Within P (i :: a) ↔ Allows P i ∧ Within P a := List.forall_mem_cons

end

def Function.Within (P : String → Prop) (f : Function) : Prop :=
  Rhai.Within P (importsOfStatements f.body)

/-- The functions of a module, and those of its own modules, import nothing else. -/
inductive Module.Within (P : String → Prop) : Module → Prop where
  | intro {m : Module} (functions : ∀ f ∈ m.functions, f.Within P)
      (modules : ∀ entry ∈ m.modules, entry.2.Within P) : m.Within P

/-- All imports in a script. -/
def Script.imports (script : Script) : List (Option String) :=
  script.functions.flatMap (fun f => importsOfStatements f.body) ++ importsOfStatements script.body

/-- What scripts can come to: files, the older modules, and the files that may be imported. None of
these has an older module, and the scripts in them import nothing but such files. -/
structure Reach where
  files : Files
  older : List (String × Module)
  may : String → Prop
  lookup {file : String} (h : may file) : older.lookup file = none
  scripts {file text : String} {script : Script} (h : may file)
    (hread : files.readText file = .ok text) (hscript : Script.ofText text = .ok script) :
    Within may script.imports

/-- All code that a script can come to imports nothing but files that may be imported. -/
structure State.Within (R : Reach) (s : State) : Prop where
  files : s.files = R.files
  functions : ∀ f ∈ s.functions, f.Within R.may
  modules : ∀ entry ∈ s.modules, entry.2.Within R.may
  loaded : ∀ entry ∈ s.loaded, entry.2.Within R.may

theorem Module.Within.of_findModule {P : String → Prop} {modules : List (String × Module)}
    (h : ∀ entry ∈ modules, entry.2.Within P) {names : List String} {m : Module}
    (hm : findModule modules names = some m) : m.Within P := by
  have hlookup {modules : List (String × Module)} (h : ∀ entry ∈ modules, entry.2.Within P)
      {name : String} {m : Module} (hm : modules.lookup name = some m) : m.Within P := by
    obtain ⟨l₁, l₂, rfl, -⟩ := List.lookup_eq_some_iff.1 hm
    exact h (name, m) (by simp)
  induction names generalizing modules with
  | nil => cases hm
  | cons name rest ih =>
    cases rest with
    | nil => exact hlookup h hm
    | cons next rest =>
      unfold findModule at hm
      split at hm
      · rename_i found hfound
        obtain ⟨-, hmodules⟩ := hlookup h hfound
        exact ih hmodules hm
      · cases hm

/-- The state with older modules behind those that were loaded. -/
def State.behind (older : List (String × Module)) (s : State) : State :=
  { s with loaded := s.loaded ++ older }

/-! ## Blind runs -/

/-- Two ends of a run that are the same but for older modules. The state is within reach, and the
value is as it should be. -/
inductive Alike {α : Type} (R : Reach) (Q : α → Prop) :
    EStateM.Result Stop State α → EStateM.Result Stop State α → Prop where
  | ok {a : α} {s : State} (ha : Q a) (hs : s.Within R) :
    Alike R Q (.ok a s) (.ok a (s.behind R.older))
  | error {e : Stop} {s : State} (hs : s.Within R) :
    Alike R Q (.error e s) (.error e (s.behind R.older))

/-- A run that does not see older modules, and gives values as they should be. -/
def Blind {α : Type} (R : Reach) (Q : α → Prop) (x : Run α) : Prop :=
  ∀ s : State, s.Within R → Alike R Q (x s) (x (s.behind R.older))

/-- Runs something, and goes on from its end, however it was. -/
def Run.cases {α β : Type} (x : Run α) (f : α → Run β) (g : Stop → Run β) : Run β := fun s =>
  match x s with
  | .ok a after => f a after
  | .error e after => g e after

/-- Nothing is asked of a value. -/
def anything {α : Type} (_ : α) : Prop := True

namespace Blind

variable {α β : Type} {R : Reach} {Q : α → Prop} {Q' : β → Prop} {x : Run α}

theorem pure {a : α} (ha : Q a) : Blind R Q (pure a) := fun _ hs => .ok ha hs

theorem done {a : α} : Blind R anything (Pure.pure a : Run α) := pure trivial

theorem throw {e : Stop} : Blind R Q (throw e) := fun _ hs => .error hs

theorem fail {p : Problem} {place : Position} : Blind R Q (Run.fail p place) := throw

theorem mono {Q'' : α → Prop} (hx : Blind R Q x) (h : ∀ a, Q a → Q'' a) : Blind R Q'' x := by
  intro s hs
  have hx := hx s hs
  generalize x s = r at hx ⊢
  generalize x (s.behind R.older) = r' at hx ⊢
  cases hx with
  | ok ha ht => exact .ok (h _ ha) ht
  | error ht => exact .error ht

/-- Whatever way something ends, what follows does not see older modules. -/
theorem cases {f : α → Run β} {g : Stop → Run β} (hx : Blind R Q x)
    (hf : ∀ a, Q a → Blind R Q' (f a)) (hg : ∀ e, Blind R Q' (g e)) :
    Blind R Q' (Run.cases x f g) := by
  intro s hs
  have h := hx s hs
  rw [Run.cases, Run.cases]
  generalize x s = r at h ⊢
  generalize x (s.behind R.older) = r' at h ⊢
  cases h with
  | ok ha ht => exact hf _ ha _ ht
  | error ht => exact hg _ _ ht

theorem bind {f : α → Run β} (hx : Blind R Q x) (hf : ∀ a, Q a → Blind R Q' (f a)) :
    Blind R Q' (x >>= f) := by
  have h : x >>= f = Run.cases x f MonadExceptOf.throw := by
    funext s
    show EStateM.bind x f s = _
    rw [EStateM.bind, Run.cases]
    cases x s <;> rfl
  rw [h]
  exact cases hx hf fun _ => throw

/-- What follows does not depend on what is known of the value. -/
theorem andThen {f : α → Run β} (hx : Blind R anything x) (hf : ∀ a, Blind R Q' (f a)) :
    Blind R Q' (x >>= f) :=
  bind hx fun a _ => hf a

theorem map {f : α → β} (hx : Blind R anything x) : Blind R anything (f <$> x) := by
  have h : f <$> x = x >>= fun a => Pure.pure (f a) := rfl
  rw [h]
  exact andThen hx fun _ => done

theorem ite {c : Prop} [Decidable c] {x y : Run α} (hx : Blind R Q x) (hy : Blind R Q y) :
    Blind R Q (if c then x else y) := by
  split
  · exact hx
  · exact hy

theorem mapM {f : α → Run β} (hf : ∀ a, Blind R anything (f a)) (as : List α) :
    Blind R anything (as.mapM f) := by
  induction as with
  | nil => exact done
  | cons a as ih =>
    rw [List.mapM_cons]
    exact (hf a).andThen fun _ => ih.andThen fun _ => done

/-- What is asked of the state is not what was loaded. -/
theorem get_bind {f : State → Run β} (hsame : ∀ s, f (s.behind R.older) = f s)
    (hf : ∀ s, s.Within R → Blind R Q' (f s)) : Blind R Q' (get >>= f) := by
  intro s hs
  show Alike R _ (f s s) (f (s.behind R.older) (s.behind R.older))
  rw [hsame]
  exact hf s hs s hs

theorem change {g : State → State} (hg : ∀ s, g (s.behind R.older) = (g s).behind R.older)
    (hs : ∀ s, s.Within R → (g s).Within R) : Blind R anything (modify g) := by
  intro s h
  show Alike R _ (.ok () (g s)) (.ok () (g (s.behind R.older)))
  rw [hg]
  exact .ok trivial (hs s h)

/-- A change of nothing but variables, values and texts. -/
theorem change_values {g : State → State}
    (hg : ∀ s, g (s.behind R.older) = (g s).behind R.older)
    (hfiles : ∀ s, (g s).files = s.files) (hfunctions : ∀ s, (g s).functions = s.functions)
    (hmodules : ∀ s, (g s).modules = s.modules) (hloaded : ∀ s, (g s).loaded = s.loaded) :
    Blind R anything (modify g) :=
  change hg fun s hs =>
    ⟨(hfiles s).trans hs.files, hfunctions s ▸ hs.functions, hmodules s ▸ hs.modules,
      hloaded s ▸ hs.loaded⟩

theorem inBlock (hx : Blind R Q x) : Blind R Q (Run.inBlock x) := by
  intro s hs
  have h := hx s hs
  have hcut {t : State} (ht : t.Within R) : State.Within R { t with
      visible := t.visible.drop (t.visible.length - s.visible.length)
      modules := t.modules.drop (t.modules.length - s.modules.length) } :=
    ⟨ht.files, ht.functions, fun entry he => ht.modules entry (List.mem_of_mem_drop he), ht.loaded⟩
  rw [Run.inBlock, Run.inBlock]
  generalize x s = r at h ⊢
  generalize x (s.behind R.older) = r' at h ⊢
  cases h with
  | ok ha ht => exact .ok ha (hcut ht)
  | error ht => exact .error (hcut ht)

theorem elsewhere {enter : State → State} (hx : Blind R Q x)
    (hbehind : ∀ s, enter (s.behind R.older) = (enter s).behind R.older)
    (henter : ∀ s, s.Within R → (enter s).Within R) : Blind R Q (Run.elsewhere enter x) := by
  intro s hs
  have h := hx (enter s) (henter s hs)
  have hback {t : State} (ht : t.Within R) : State.Within R { t with
      visible := s.visible, functions := s.functions, modules := s.modules, source := s.source
      this := s.this, depth := s.depth, offered := s.offered } :=
    ⟨ht.files, hs.functions, hs.modules, ht.loaded⟩
  rw [Run.elsewhere, Run.elsewhere, hbehind]
  generalize x (enter s) = r at h ⊢
  generalize x ((enter s).behind R.older) = r' at h ⊢
  cases h with
  | ok ha ht => exact .ok ha (hback ht)
  | error ht => exact .error (hback ht)

/-! ### Parts of values -/

theorem bring (name : String) (value : Value) (isConstant : Bool) :
    Blind R anything (Run.bring name value isConstant) :=
  change_values (fun _ => rfl) (fun _ => rfl) (fun _ => rfl) (fun _ => rfl) fun _ => rfl

theorem write (line : String) : Blind R anything (Run.write line) :=
  change_values (fun _ => rfl) (fun _ => rfl) (fun _ => rfl) (fun _ => rfl) fun _ => rfl

theorem assign (name : String) (value : Value) :
    Blind R anything (modify fun s => { s with visible := setVariable name value s.visible }) :=
  change_values (fun _ => rfl) (fun _ => rfl) (fun _ => rfl) (fun _ => rfl) fun _ => rfl

theorem setThis (value : Value) :
    Blind R anything (modify fun s => { s with this := some value }) :=
  change_values (fun _ => rfl) (fun _ => rfl) (fun _ => rfl) (fun _ => rfl) fun _ => rfl

theorem offer (name : String) (value : Value) :
    Blind R anything (modify fun s => { s with offered := (name, value) :: s.offered }) :=
  change_values (fun _ => rfl) (fun _ => rfl) (fun _ => rfl) (fun _ => rfl) fun _ => rfl

/-- What has become of a value is put where the value was, if it has changed. -/
theorem putBack {put : Value → Run Unit} (hput : ∀ w, Blind R anything (put w))
    (changed : Option Value) (a : α) :
    Blind R anything (match changed with
      | some w => do
        put w
        Pure.pure a
      | none => Pure.pure a) := by
  cases changed with
  | some w => exact (hput w).andThen fun _ => done
  | none => exact done

/-- The state is looked at, but for what was loaded. -/
theorem look {g : State → α} (hg : ∀ s, g (s.behind R.older) = g s)
    (hQ : ∀ s, s.Within R → Q (g s)) : Blind R Q (fun s => .ok (g s) s) := by
  intro s hs
  show Alike R _ (.ok (g s) s) (.ok (g (s.behind R.older)) (s.behind R.older))
  rw [hg]
  exact .ok (hQ s hs) hs

theorem ofResult (place : Position) (r : Except Problem α) :
    Blind R anything (Run.ofResult place r) := by
  cases r with
  | ok a => exact done
  | error p => exact fail

theorem partAt (target index : Value) (mark place : Position) :
    Blind R anything (partAt target index mark place) := by
  unfold Rhai.partAt
  repeat' split
  all_goals first
    | exact done
    | exact fail

theorem withPartAt (target index part : Value) (mark place : Position) :
    Blind R anything (withPartAt target index part mark place) := by
  unfold Rhai.withPartAt
  repeat' split
  all_goals first
    | exact done
    | exact fail

theorem propertyOf (target : Value) (name : String) (place : Position) :
    Blind R anything (propertyOf target name place) := by
  unfold Rhai.propertyOf
  split
  · exact done
  · split
    · exact (ofResult _ _).andThen fun _ => done
    · exact fail

theorem withProperty (target : Value) (name : String) (part : Value) (place : Position) :
    Blind R anything (withProperty target name part place) := by
  unfold Rhai.withProperty
  split
  · exact done
  · exact fail

theorem replaced (old : Value) (goal : Goal) : Blind R anything (replaced old goal) := by
  unfold Rhai.replaced
  split
  · exact done
  · exact done
  · exact ofResult _ _

theorem checkWritable (root : Root) : Blind R anything root.checkWritable :=
  ite fail done

theorem nameValue (modules : List String) (s : String) (start p : Position) :
    Blind R anything (nameValue modules s start p) := by
  refine get_bind (fun _ => rfl) fun st _ => ?_
  repeat' split
  all_goals first
    | exact done
    | exact fail

end Blind

/-! ## All that runs -/

/-- With so much fuel, nothing that runs sees older modules. -/
structure AllBlind (R : Reach) (n : Nat) : Prop where
  expr (e : Expr) (h : Within R.may e.imports) : Blind R anything (expr n e)
  exprs (es : List Expr) (h : Within R.may (importsOfAll es)) : Blind R anything (exprs n es)
  truth (e : Expr) (h : Within R.may e.imports) : Blind R anything (truth n e)
  callExpr (modules : List String) (f : String) (args : List Expr) (start p : Position)
    (h : Within R.may (importsOfAll args)) : Blind R anything (callExpr n modules f args start p)
  callNamed (f : String) (vs : List Value) (isConstant : Bool) (p : Position) :
    Blind R anything (callNamed n f vs isConstant p)
  callFunction (g : Function) (vs : List Value) (source : String) (this : Option Value)
    (p : Position) (h : g.Within R.may) : Blind R anything (callFunction n g vs source this p)
  higher (f : String) (vs : List Value) (p : Position) : Blind R anything (higher n f vs p)
  eachItem (g : String) (bound items : List Value) (p : Position) :
    Blind R anything (eachItem n g bound items p)
  folded (g : String) (bound items : List Value) (acc : Value) (p : Position) :
    Blind R anything (folded n g bound items acc p)
  sorted (g : String) (bound items : List Value) (p : Position) :
    Blind R anything (sorted n g bound items p)
  placed (g : String) (bound : List Value) (v : Value) (items : List Value) (p : Position) :
    Blind R anything (placed n g bound v items p)
  reached (ls : List Link) (h : Within R.may (importsOfLinks ls)) :
    Blind R anything (reached n ls)
  chainExpr (e : Expr) (ls : List Link) (goal : Goal) (he : Within R.may e.imports)
    (hl : Within R.may (importsOfLinks ls)) : Blind R anything (chainExpr n e ls goal)
  follow (root : Root) (v : Value) (ls : List Reached) (goal : Goal) :
    Blind R anything (follow n root v ls goal)
  callMethod (f : String) (v : Value) (args : List Value) (isConstant : Bool) (p : Position) :
    Blind R anything (callMethod n f v args isConstant p)
  statements (ss : List Stmt) (h : Within R.may (importsOfStatements ss)) :
    Blind R anything (statements n ss)
  round (ss : List Stmt) (h : Within R.may (importsOfStatements ss)) :
    Blind R anything (round n ss)
  whileLoop (c : Option Expr) (ss : List Stmt) (hc : Within R.may (importsOfOption c))
    (h : Within R.may (importsOfStatements ss)) : Blind R anything (whileLoop n c ss)
  repeatLoop (ss : List Stmt) (c : Expr) (until_ : Bool) (h : Within R.may (importsOfStatements ss))
    (hc : Within R.may c.imports) : Blind R anything (repeatLoop n ss c until_)
  forLoop (item : String) (counter : Option String) (source : Source) (k : Nat) (ss : List Stmt)
    (h : Within R.may (importsOfStatements ss)) :
    Blind R anything (forLoop n item counter source k ss)
  matchesAny (v : Value) (es : List Expr) (h : Within R.may (importsOfAll es)) :
    Blind R anything (matchesAny n v es)
  chooseCase (v : Value) (cs : List Case) (h : Within R.may (importsOfCases cs)) :
    Blind R anything (chooseCase n v cs)
  importModule (path : String) (p : Position) (h : R.may (moduleFile path)) :
    Blind R (Module.Within R.may) (importModule n path p)
  statement (s : Stmt) (h : Within R.may s.imports) : Blind R anything (statement n s)

theorem importsOfFields_eq (fields : List (String × Expr)) :
    importsOfFields fields = importsOfAll (fields.map (·.2)) := by
  induction fields with
  | nil => rfl
  | cons field rest ih => rw [List.map_cons, importsOfFields, importsOfAll, ih]

/-- Where a failure has no value of its own, that of the failure it was thrown for stands for it. -/
def Failure.rethrown (f : Failure) : Stop → Stop
  | .failed (.plain (.thrown .unit) (some p)) => .failed (f.movedTo p)
  | e => e

/-- What is done about a failure that is caught. -/
def handled (n : Nat) (caught : Option String) (handler : List Stmt) (f : Failure) : Run Value := do
  let s ← get
  Run.cases (Run.inBlock do
      match caught with
      | some name => Run.bring name (f.caught s.source) false
      | none => Pure.pure ()
      statements n handler)
    (fun _ => Pure.pure .unit) fun e => throw (f.rethrown e)

theorem statement_try (n : Nat) (body : List Stmt) (caught : Option String) (handler : List Stmt)
    (p : Position) :
    statement (n + 1) (.try_ body caught handler p) =
      Run.cases (Run.inBlock (statements n body)) (fun _ => Pure.pure .unit) fun
        | .failed f =>
          if f.problem.isCatchable then handled n caught handler f else throw (.failed f)
        | e => throw e := by
  funext s
  simp only [statement, Run.cases]
  rcases Run.inBlock (statements n body) s with ⟨v, t⟩ | ⟨e, t⟩
  · rfl
  · cases e with
    | failed f =>
      by_cases hf : f.problem.isCatchable
      · simp only [hf, if_true]
        show _ = Run.cases _ _ _ t
        rw [Run.cases]
        dsimp only
        generalize Run.inBlock _ t = r
        rcases r with ⟨v, u⟩ | ⟨e, u⟩
        · rfl
        · dsimp only
          split
          · rename_i he
            cases he
            rfl
          · rename_i he
            cases he
          · rename_i hthrown _
            unfold Failure.rethrown
            split
            · exact absurd rfl (hthrown _ _)
            · rfl
      · simp only [hf]
        rfl
    | _ => rfl

/-! ### What is done about ends -/

section

variable {R : Reach}

/-- A function ends with a value that it returns, and with what `this` has become. -/
def afterFunction (g : Function) (source : String) (p : Position) :
    Stop → Run (Value × Option Value)
  | .returned v => fun s => .ok (v, s.this) s
  | .failed f =>
    throw (.failed (if f.problem.isCatchable then .inCall g.name source f p else f.movedTo p))
  | e => throw e

theorem afterFunction_blind (g : Function) (source : String) (p : Position) (e : Stop) :
    Blind R anything (afterFunction g source p e) := by
  cases e with
  | returned v => exact .look (fun _ => rfl) fun _ _ => trivial
  | failed f | broken v | continued | exited v => exact .throw

/-- A round of a loop ends early with a value if it breaks off the loop. -/
def afterRound : Stop → Run (Option Value)
  | .continued => Pure.pure none
  | .broken v => Pure.pure (some v)
  | e => throw e

theorem afterRound_blind (e : Stop) : Blind R anything (afterRound e) := by
  cases e with
  | continued | broken v => exact .done
  | failed f | returned v | exited v => exact .throw

/-- A module is made although its script returns early, but not if it has failed. -/
def afterModule (made : State → Module) (path : String) (p : Position) : Stop → Run Module
  | .returned _ => fun s => .ok (made s) s
  | .failed f => throw (.failed (.inModule path f p))
  | e => throw e

theorem afterModule_blind {made : State → Module} {Q : Module → Prop}
    (hmade : Blind R Q fun s => .ok (made s) s) (path : String) (p : Position) (e : Stop) :
    Blind R Q (afterModule made path p e) := by
  cases e with
  | returned v => exact hmade
  | failed f | broken v | continued | exited v => exact .throw

end

namespace AllBlind

variable {R : Reach} {n : Nat}

theorem zero : AllBlind R 0 where
  expr _ _ := .fail
  exprs _ _ := .fail
  truth _ _ := .fail
  callExpr _ _ _ _ _ _ := .fail
  callNamed _ _ _ _ := .fail
  callFunction _ _ _ _ _ _ := .fail
  higher _ _ _ := .fail
  eachItem _ _ _ _ := .fail
  folded _ _ _ _ _ := .fail
  sorted _ _ _ _ := .fail
  placed _ _ _ _ _ := .fail
  reached _ _ := .fail
  chainExpr _ _ _ _ _ := .fail
  follow _ _ _ _ := .fail
  callMethod _ _ _ _ _ := .fail
  statements _ _ := .fail
  round _ _ := .fail
  whileLoop _ _ _ _ := .fail
  repeatLoop _ _ _ _ _ := .fail
  forLoop _ _ _ _ _ _ := .fail
  matchesAny _ _ _ := .fail
  chooseCase _ _ _ := .fail
  importModule _ _ _ := .fail
  statement _ _ := .fail

variable (ih : AllBlind R n)

include ih

theorem exprs_succ (es : List Expr) (h : Within R.may (importsOfAll es)) :
    Blind R anything (Rhai.exprs (n + 1) es) := by
  cases es with
  | nil => exact .done
  | cons e rest =>
    obtain ⟨he, hrest⟩ := within_append.1 h
    exact (ih.expr e he).andThen fun _ => (ih.exprs rest hrest).andThen fun _ => .done

theorem truth_succ (e : Expr) (h : Within R.may e.imports) :
    Blind R anything (Rhai.truth (n + 1) e) := by
  refine (ih.expr e h).andThen fun v => ?_
  cases v
  case bool b => exact .done
  all_goals exact .fail

theorem expr_succ (e : Expr) (h : Within R.may e.imports) :
    Blind R anything (Rhai.expr (n + 1) e) := by
  cases e with
  | constant v p => exact .done
  | template parts p => exact (ih.exprs parts h).andThen fun _ => .done
  | array items p => exact (ih.exprs items h).andThen fun _ => .done
  | map fields p =>
    rw [Expr.imports, importsOfFields_eq] at h
    exact (ih.exprs _ h).andThen fun _ => .done
  | name modules s start p => exact .nameValue modules s start p
  | call modules f args start p => exact ih.callExpr modules f args start p h
  | operate op args p => exact (ih.exprs args h).andThen fun _ => .ofResult p _
  | both a b p =>
    obtain ⟨ha, hb⟩ := within_append.1 h
    exact (ih.truth a ha).andThen fun _ => .ite ((ih.truth b hb).andThen fun _ => .done) .done
  | either a b p =>
    obtain ⟨ha, hb⟩ := within_append.1 h
    exact (ih.truth a ha).andThen fun _ => .ite .done ((ih.truth b hb).andThen fun _ => .done)
  | orElse a b p =>
    obtain ⟨ha, hb⟩ := within_append.1 h
    refine (ih.expr a ha).andThen fun v => ?_
    cases v
    case unit => exact ih.expr b hb
    all_goals exact .done
  | chain root links =>
    obtain ⟨hroot, hlinks⟩ := within_append.1 h
    exact ih.chainExpr root links .read hroot hlinks
  | statement s p => exact ih.statement s h
  | closure f held p =>
    exact (Blind.mapM (fun held => .nameValue [] held.1 held.2 held.2) held).andThen fun _ => .done

theorem callExpr_succ (modules : List String) (f : String) (args : List Expr) (start p : Position)
    (h : Within R.may (importsOfAll args)) :
    Blind R anything (Rhai.callExpr (n + 1) modules f args start p) := by
  cases modules with
  | nil =>
    refine (ih.exprs args h).andThen fun vs => ?_
    extract_lets call
    have hcall (root : Option Root) : Blind R anything (call root) := by
      refine (ih.callNamed f vs _ p).andThen fun r => ?_
      dsimp only
      split
      · exact (Blind.assign _ _).andThen fun _ => .done
      · exact .done
    split
    · refine .get_bind (fun _ => rfl) fun st _ => ?_
      split
      · exact Blind.done.andThen hcall
      · exact Blind.done.andThen hcall
    · exact Blind.done.andThen hcall
  | cons m rest =>
    refine (ih.exprs args h).andThen fun vs => ?_
    refine .get_bind (fun _ => rfl) fun st hst => ?_
    split
    · exact .fail
    · rename_i found hfound
      have hm : found.Within R.may := .of_findModule hst.modules hfound
      split
      · exact .fail
      · rename_i g hg
        obtain ⟨hfunctions, hmodules⟩ := hm
        have hg := hfunctions g (List.mem_filter.1 (List.mem_of_find?_eq_some hg)).1
        exact Blind.map (Blind.elsewhere (ih.callFunction g vs _ none p hg) (fun _ => rfl)
          fun s hs => ⟨hs.files, hfunctions, hmodules, hs.loaded⟩)

theorem callNamed_succ (f : String) (vs : List Value) (isConstant : Bool) (p : Position) :
    Blind R anything (Rhai.callNamed (n + 1) f vs isConstant p) := by
  refine .get_bind (fun _ => rfl) fun st hst => ?_
  split
  · rename_i g hg
    have hg := hst.functions g (List.mem_of_find?_eq_some hg)
    exact (ih.callFunction g vs _ none p hg).andThen fun _ => .done
  · split
    · exact (Blind.write _).andThen fun _ => .done
    · exact (Blind.write _).andThen fun _ => .done
    · exact (Blind.write _).andThen fun _ => .done
    · exact .throw
    · exact .throw
    · exact (ih.callNamed _ _ _ _).andThen fun _ => .done
    · exact .done
    · exact .done
    · refine (ih.higher f vs p).andThen fun found => ?_
      cases found with
      | some r => exact .done
      | none =>
        dsimp only
        split
        · have hanswer (r : Answered) : Blind R anything (do
              let r ← Run.ofResult p r
              return (r.value, r.changed)) := (Blind.ofResult p r).andThen fun _ => .done
          exact .ite (Blind.fail.andThen fun _ => hanswer _) (hanswer _)
        · exact .fail

theorem callFunction_succ (g : Function) (vs : List Value) (source : String) (this : Option Value)
    (p : Position) (h : g.Within R.may) :
    Blind R anything (Rhai.callFunction (n + 1) g vs source this p) := by
  refine .get_bind (fun _ => rfl) fun st hst => ?_
  extract_lets depth enter run go
  have hgo (u : Unit) : Blind R anything (go u) := by
    refine Blind.elsewhere ?_ (fun _ => rfl) fun s hs =>
      ⟨hs.files, hs.functions, hs.modules, hs.loaded⟩
    have hrun : run = Run.cases (Rhai.statements n g.body) (fun v s => .ok (v, s.this) s)
        (afterFunction g source p) := by
      funext s
      simp only [run, Run.cases]
      rcases Rhai.statements n g.body s with ⟨v, t⟩ | ⟨e, t⟩
      · rfl
      · cases e <;> rfl
    rw [hrun]
    refine (ih.statements g.body h).cases (fun v _ => ?_) (afterFunction_blind g source p)
    exact .look (fun _ => rfl) fun _ _ => trivial
  exact .ite (Blind.fail.andThen hgo) (hgo ())

theorem higher_succ (f : String) (vs : List Value) (p : Position) :
    Blind R anything (Rhai.higher (n + 1) f vs p) := by
  have heach (g : String) (bound items : List Value) {β : Type} (k : List Value → β) :
      Blind R anything (do return k (← Rhai.eachItem n g bound items p)) :=
    (ih.eachItem g bound items p).andThen fun _ => .done
  unfold Rhai.higher
  split
  · exact heach _ _ _ _
  · exact heach _ _ _ _
  · exact (ih.eachItem _ _ _ _).map.andThen fun _ => .done
  · exact heach _ _ _ _
  · exact heach _ _ _ _
  · exact heach _ _ _ _
  · exact heach _ _ _ _
  · exact (ih.folded _ _ _ _ _).andThen fun _ => .done
  · exact (ih.folded _ _ _ _ _).andThen fun _ => .done
  · exact heach _ _ _ _
  · exact heach _ _ _ _
  · exact (ih.sorted _ _ _ _).andThen fun _ => .done
  · exact .done

theorem eachItem_succ (g : String) (bound items : List Value) (p : Position) :
    Blind R anything (Rhai.eachItem (n + 1) g bound items p) := by
  cases items with
  | nil => exact .done
  | cons v rest =>
    exact (ih.callNamed g (bound ++ [v]) false p).andThen fun _ =>
      (ih.eachItem g bound rest p).andThen fun _ => .done

theorem folded_succ (g : String) (bound items : List Value) (acc : Value) (p : Position) :
    Blind R anything (Rhai.folded (n + 1) g bound items acc p) := by
  cases items with
  | nil => exact .done
  | cons v rest =>
    exact (ih.callNamed g (bound ++ [acc, v]) false p).andThen fun r =>
      ih.folded g bound rest r.1 p

theorem sorted_succ (g : String) (bound items : List Value) (p : Position) :
    Blind R anything (Rhai.sorted (n + 1) g bound items p) := by
  cases items with
  | nil => exact .done
  | cons v rest =>
    exact (ih.sorted g bound rest p).andThen fun vs => ih.placed g bound v vs p

theorem placed_succ (g : String) (bound : List Value) (v : Value) (items : List Value)
    (p : Position) : Blind R anything (Rhai.placed (n + 1) g bound v items p) := by
  cases items with
  | nil => exact .done
  | cons w rest =>
    exact (ih.callNamed g (bound ++ [v, w]) false p).andThen fun r =>
      .ite ((ih.placed g bound v rest p).andThen fun _ => .done) .done

theorem reached_succ (ls : List Link) (h : Within R.may (importsOfLinks ls)) :
    Blind R anything (Rhai.reached (n + 1) ls) := by
  cases ls with
  | nil => exact .done
  | cons l rest =>
    obtain ⟨hl, hrest⟩ := within_append.1 h
    unfold Rhai.reached
    extract_lets onwards
    have honwards (r : Reached) : Blind R anything (onwards r) :=
      (ih.reached rest hrest).andThen fun _ => .done
    cases l with
    | index i mark optional =>
      exact (ih.expr i hl).andThen fun _ => Blind.done.andThen honwards
    | property s mark p optional => exact Blind.done.andThen honwards
    | method s args mark p optional =>
      exact (ih.exprs args hl).andThen fun _ => Blind.done.andThen honwards

theorem chainExpr_succ (e : Expr) (ls : List Link) (goal : Goal) (he : Within R.may e.imports)
    (hl : Within R.may (importsOfLinks ls)) :
    Blind R anything (Rhai.chainExpr (n + 1) e ls goal) := by
  refine (ih.reached ls hl).andThen fun links => ?_
  split
  · refine .ite (.get_bind (fun _ => rfl) fun st _ => ?_) (.get_bind (fun _ => rfl) fun st _ => ?_)
    · split
      · exact .fail
      · exact (ih.follow _ _ links goal).andThen fun r => .putBack .setThis r.2 r.1
    · split
      · exact .fail
      · exact (ih.follow _ _ links goal).andThen fun r => .putBack (.assign _) r.2 r.1
  · exact (ih.expr e he).andThen fun v => (ih.follow _ v links goal).andThen fun _ => .done

/-- A part of a value is followed further, and put back if it has changed. -/
theorem follow_part {x : Run Value} {put : Value → Run Value} (hx : Blind R anything x)
    (hput : ∀ w, Blind R anything (put w)) (root : Root) (rest : List Reached) (goal : Goal) :
    Blind R anything (do
      let inner ← x
      let (r, changed) ← Rhai.follow n root inner rest goal
      match changed with
      | some w => return (r, some (← put w))
      | none => return (r, none)) := by
  refine hx.andThen fun inner => (ih.follow root inner rest goal).andThen fun r => ?_
  obtain ⟨r, changed⟩ := r
  cases changed with
  | some w => exact (hput w).andThen fun _ => .done
  | none => exact .done

theorem follow_succ (root : Root) (v : Value) (ls : List Reached) (goal : Goal) :
    Blind R anything (Rhai.follow (n + 1) root v ls goal) := by
  cases ls with
  | nil => exact .done
  | cons l rest =>
    unfold Rhai.follow
    extract_lets onwards
    have honwards (u : Unit) : Blind R anything (onwards u) := by
      dsimp only [onwards]
      cases l with
      | index i mark p optional =>
        dsimp only
        split
        · exact (Blind.partAt _ _ _ _).andThen fun _ => .done
        · refine (Blind.partAt _ _ _ _).andThen fun old => ?_
          have hset : Blind R anything (do
              let w ← Rhai.replaced old goal
              let w ← Rhai.withPartAt v i w mark p
              return (Value.unit, some w)) :=
            (Blind.replaced old goal).andThen fun _ =>
              (Blind.withPartAt _ _ _ _ _).andThen fun _ => .done
          exact .ite ((Blind.checkWritable root).andThen fun _ => hset) hset
        · exact ih.follow_part (.partAt _ _ _ _) (fun w => .withPartAt _ _ w _ _) root rest goal
      | property s p optional =>
        dsimp only
        split
        · exact (Blind.propertyOf _ _ _).andThen fun _ => .done
        · split
          · have hset (old : Value) (put : Value → Value) : Blind R anything (do
                let w ← Rhai.replaced old goal
                return (Value.unit, some (put w))) :=
              (Blind.replaced old goal).andThen fun _ => .done
            exact .ite ((Blind.checkWritable root).andThen fun _ => hset _ _) (hset _ _)
          · exact (Blind.withProperty _ _ _ _).andThen fun _ => .done
        · exact ih.follow_part (.propertyOf _ _ _) (fun w => .withProperty _ _ w _) root rest goal
      | method f args p optional =>
        refine (ih.callMethod f v args root.isConstant p).andThen fun r => ?_
        obtain ⟨r, changed⟩ := r
        split
        · exact .done
        · exact (ih.follow _ _ _ _).andThen fun _ => .done
    refine .ite ?_ (honwards ())
    split
    · exact .done
    · exact honwards ()

theorem callMethod_succ (f : String) (v : Value) (args : List Value) (isConstant : Bool)
    (p : Position) : Blind R anything (Rhai.callMethod (n + 1) f v args isConstant p) := by
  refine .get_bind (fun _ => rfl) fun st hst => ?_
  have hknown {name : String} {k : Nat} {g : Function}
      (hg : function? st.functions name k = some g) : g.Within R.may :=
    hst.functions g (List.mem_of_find?_eq_some hg)
  split
  · exact (ih.callNamed _ _ _ _).andThen fun _ => .done
  · split
    · rename_i g hg
      exact ih.callFunction g args _ (some v) p (hknown hg)
    · extract_lets held
      rcases held with _ | ⟨g, bound⟩
      · exact ih.callNamed _ _ _ _
      · dsimp only
        split
        · rename_i h hh
          exact ih.callFunction h _ _ (some v) p (hknown hh)
        · exact ih.callNamed _ _ _ _

theorem statements_succ (ss : List Stmt) (h : Within R.may (importsOfStatements ss)) :
    Blind R anything (Rhai.statements (n + 1) ss) := by
  match ss with
  | [] => exact .done
  | [s] => exact ih.statement s (within_append.1 h).1
  | s :: t :: rest =>
    obtain ⟨hs, hrest⟩ := within_append.1 h
    exact (ih.statement s hs).map.andThen fun _ => ih.statements (t :: rest) hrest

theorem round_succ (ss : List Stmt) (h : Within R.may (importsOfStatements ss)) :
    Blind R anything (Rhai.round (n + 1) ss) := by
  have hround : Rhai.round (n + 1) ss =
      Run.cases (Run.inBlock (Rhai.statements n ss)) (fun _ => Pure.pure none) afterRound := by
    funext s
    simp only [Rhai.round, Run.cases]
    rcases Run.inBlock (Rhai.statements n ss) s with ⟨v, t⟩ | ⟨e, t⟩
    · rfl
    · cases e <;> rfl
  rw [hround]
  exact (ih.statements ss h).inBlock.cases (fun _ _ => .done) afterRound_blind

theorem whileLoop_succ (c : Option Expr) (ss : List Stmt) (hc : Within R.may (importsOfOption c))
    (h : Within R.may (importsOfStatements ss)) :
    Blind R anything (Rhai.whileLoop (n + 1) c ss) := by
  unfold Rhai.whileLoop
  extract_lets go
  have hgo (goes : Bool) : Blind R anything (go goes) := by
    refine .ite ((ih.round ss h).andThen fun r => ?_) .done
    cases r with
    | some v => exact .done
    | none => exact ih.whileLoop c ss hc h
  cases c with
  | some c => exact (ih.truth c hc).andThen hgo
  | none => exact Blind.done.andThen hgo

theorem repeatLoop_succ (ss : List Stmt) (c : Expr) (until_ : Bool)
    (h : Within R.may (importsOfStatements ss)) (hc : Within R.may c.imports) :
    Blind R anything (Rhai.repeatLoop (n + 1) ss c until_) := by
  refine (ih.round ss h).andThen fun r => ?_
  cases r with
  | some v => exact .done
  | none => exact (ih.truth c hc).andThen fun _ => .ite .done (ih.repeatLoop ss c until_ h hc)

theorem forLoop_succ (item : String) (counter : Option String) (source : Source) (k : Nat)
    (ss : List Stmt) (h : Within R.may (importsOfStatements ss)) :
    Blind R anything (Rhai.forLoop (n + 1) item counter source k ss) := by
  unfold Rhai.forLoop
  split
  · exact .done
  · extract_lets once
    have honce : Blind R anything once := by
      refine Blind.inBlock ?_
      cases counter with
      | none => exact Blind.done.andThen fun _ => (Blind.bring _ _ _).andThen fun _ => ih.round ss h
      | some s =>
        refine (Blind.bring _ _ _).andThen fun _ => ?_
        exact (Blind.bring _ _ _).andThen fun _ => ih.round ss h
    refine honce.andThen fun r => ?_
    cases r with
    | some w => exact .done
    | none => exact ih.forLoop item counter _ _ ss h

theorem matchesAny_succ (v : Value) (es : List Expr) (h : Within R.may (importsOfAll es)) :
    Blind R anything (Rhai.matchesAny (n + 1) v es) := by
  cases es with
  | nil => exact .done
  | cons e rest =>
    obtain ⟨he, hrest⟩ := within_append.1 h
    exact (ih.expr e he).andThen fun w => .ite .done (ih.matchesAny v rest hrest)

theorem chooseCase_succ (v : Value) (cs : List Case) (h : Within R.may (importsOfCases cs)) :
    Blind R anything (Rhai.chooseCase (n + 1) v cs) := by
  cases cs with
  | nil => exact .done
  | cons c rest =>
    obtain ⟨patterns, guard, body⟩ := c
    obtain ⟨hc, hrest⟩ := within_append.1 h
    obtain ⟨hhead, hbody⟩ := within_append.1 hc
    obtain ⟨hpatterns, hguard⟩ := within_append.1 hhead
    unfold Rhai.chooseCase
    extract_lets run guarded
    have hrun (taken : Bool) : Blind R anything (run taken) :=
      .ite (ih.statements body hbody).inBlock (ih.chooseCase v rest hrest)
    have hguarded (hit : Bool) : Blind R anything (guarded hit) := by
      refine .ite ?_ (Blind.done.andThen hrun)
      cases guard with
      | some g => exact (ih.truth g hguard).andThen hrun
      | none => exact Blind.done.andThen hrun
    cases patterns with
    | none => exact Blind.done.andThen hguarded
    | some ps => exact (ih.matchesAny v ps hpatterns).andThen hguarded

theorem importModule_succ (path : String) (p : Position) (h : R.may (moduleFile path)) :
    Blind R (Module.Within R.may) (Rhai.importModule (n + 1) path p) := by
  refine Blind.get_bind (fun s => ?_) fun s hs => ?_
  · have hlookup : (s.behind R.older).loaded.lookup (moduleFile path) =
        s.loaded.lookup (moduleFile path) := by
      rw [State.behind, List.lookup_append, R.lookup h, Option.or_none]
    rw [moduleFile] at hlookup
    dsimp only
    rw [hlookup]
    rfl
  extract_lets file
  split
  · rename_i m hm
    obtain ⟨l₁, l₂, hloaded, -⟩ := List.lookup_eq_some_iff.1 hm
    exact .pure (hs.loaded (file, m) (by rw [hloaded]; simp))
  · split
    · exact .fail
    · rename_i text hread
      split
      · exact .throw
      · rename_i script hscript
        extract_lets enter made run
        obtain ⟨hfunctions, hbody⟩ := within_append.1 (R.scripts h (hs.files ▸ hread) hscript)
        have hfunctions : ∀ f ∈ script.functions, f.Within R.may := fun f hf i hi =>
          hfunctions i (List.mem_flatMap.2 ⟨f, hf, hi⟩)
        have hrun : run = Run.cases (Rhai.statements n script.body)
            (fun _ s => .ok (made s) s) (afterModule made path p) := by
          funext s
          simp only [run, Run.cases]
          rcases Rhai.statements n script.body s with ⟨v, t⟩ | ⟨e, t⟩
          · rfl
          · cases e <;> rfl
        have hmodule : Blind R (Module.Within R.may) fun s => .ok (made s) s :=
          .look (fun _ => rfl) fun s hs => ⟨hfunctions, hs.modules⟩
        have hblind : Blind R (Module.Within R.may) run := by
          rw [hrun]
          exact (ih.statements script.body hbody).cases (fun _ _ => hmodule)
            (afterModule_blind hmodule path p)
        have henter (s : State) (hs : s.Within R) : (enter s).Within R :=
          ⟨hs.files, hfunctions, by simp [enter], hs.loaded⟩
        have hbehind (s : State) : enter (s.behind R.older) = (enter s).behind R.older := rfl
        refine (hblind.elsewhere hbehind henter).bind fun m hm => ?_
        refine Blind.andThen (.change (fun _ => rfl) fun s hs => ?_) fun _ => .pure hm
        exact ⟨hs.files, hs.functions, hs.modules, List.forall_mem_cons.2 ⟨hm, hs.loaded⟩⟩

/-- The value of an expression that may be missing, and what follows. -/
theorem optional {α : Type} (e : Option Expr) (h : Within R.may (importsOfOption e))
    {f : Value → Run α} (hf : ∀ v, Blind R anything (f v)) :
    Blind R anything (match e with
      | some e => do
        let v ← Rhai.expr n e
        f v
      | none => do
        let v ← Pure.pure Value.unit
        f v) := by
  cases e with
  | some e => exact (ih.expr e h).andThen hf
  | none => exact Blind.done.andThen hf

theorem assign_succ (op : Option String) (target value : Expr) (p : Position)
    (h : Within R.may (Stmt.assign op target value p).imports) :
    Blind R anything (Rhai.statement (n + 1) (.assign op target value p)) := by
  obtain ⟨htarget, hvalue⟩ := within_append.1 h
  refine (ih.expr value hvalue).andThen fun v => ?_
  extract_lets finish
  have hfinish (u : Unit) : Blind R anything (finish u) := .done
  split
  · refine .ite (.get_bind (fun _ => rfl) fun st _ => ?_) (.get_bind (fun _ => rfl) fun st _ => ?_)
    · split
      · exact Blind.fail.andThen hfinish
      · exact (Blind.replaced _ _).andThen fun w => (Blind.setThis w).andThen hfinish
    · split
      · exact Blind.fail.andThen hfinish
      · extract_lets go
        have hgo (u : Unit) : Blind R anything (go u) :=
          (Blind.replaced _ _).andThen fun w => (Blind.assign _ w).andThen hfinish
        exact .ite (Blind.fail.andThen hgo) (hgo ())
  · obtain ⟨hroot, hlinks⟩ := within_append.1 htarget
    exact (ih.chainExpr _ _ _ hroot hlinks).map.andThen hfinish
  · exact Blind.fail.andThen hfinish

theorem handled_blind (caught : Option String) (handler : List Stmt) (f : Failure)
    (h : Within R.may (importsOfStatements handler)) :
    Blind R anything (handled n caught handler f) := by
  refine .get_bind (fun _ => rfl) fun s _ => ?_
  have hhandler : Blind R anything (Run.inBlock (do
      match caught with
      | some name => Run.bring name (f.caught s.source) false
      | none => Pure.pure ()
      Rhai.statements n handler)) := by
    refine Blind.inBlock ?_
    cases caught with
    | none => exact ih.statements handler h
    | some name => exact (Blind.bring _ _ _).andThen fun _ => ih.statements handler h
  exact hhandler.cases (fun _ _ => .done) fun _ => .throw

theorem try_succ (body : List Stmt) (caught : Option String) (handler : List Stmt) (p : Position)
    (h : Within R.may (Stmt.try_ body caught handler p).imports) :
    Blind R anything (Rhai.statement (n + 1) (.try_ body caught handler p)) := by
  obtain ⟨hbody, hhandler⟩ := within_append.1 h
  rw [statement_try]
  refine (ih.statements body hbody).inBlock.cases (fun _ _ => .done) fun e => ?_
  cases e with
  | failed f => exact .ite (ih.handled_blind caught handler f hhandler) .throw
  | returned v => exact .throw
  | broken v => exact .throw
  | continued => exact .throw
  | exited v => exact .throw

theorem import_succ (path : Expr) (newName : Option String) (p : Position)
    (h : Within R.may (Stmt.import_ path newName p).imports) :
    Blind R anything (Rhai.statement (n + 1) (.import_ path newName p)) := by
  obtain ⟨hpath, hinner⟩ := within_cons.1 h
  have hvalue : Blind R (fun v => ∀ s, v = .text s → R.may (moduleFile s)) (Rhai.expr n path) := by
    unfold Expr.importPath at hpath
    split at hpath
    · rename_i s q
      cases n with
      | zero => exact .fail
      | succ n => exact .pure fun _ hs => by cases hs; exact hpath
    · exact (ih.expr path hinner).mono fun _ _ s _ => hpath _
  refine hvalue.bind fun v hv => ?_
  split
  · rename_i s
    refine (ih.importModule s path.place (hv s rfl)).bind fun m hm => ?_
    cases newName with
    | none => exact .done
    | some name =>
      refine Blind.andThen (.change (fun _ => rfl) fun s hs => ?_) fun _ => .done
      exact ⟨hs.files, hs.functions, List.forall_mem_cons.2 ⟨hm, hs.modules⟩, hs.loaded⟩
  · exact .fail

theorem statement_succ (s : Stmt) (h : Within R.may s.imports) :
    Blind R anything (Rhai.statement (n + 1) s) := by
  cases s with
  | expr e => exact ih.expr e h
  | declare isConstant name value exported p =>
    exact ih.optional value h fun v => (Blind.bring _ _ _).andThen fun _ =>
      .ite ((Blind.offer name v).andThen fun _ => .done) .done
  | assign op target value p => exact ih.assign_succ op target value p h
  | branch c yes no p =>
    obtain ⟨hhead, hno⟩ := within_append.1 h
    obtain ⟨hc, hyes⟩ := within_append.1 hhead
    exact (ih.truth c hc).andThen fun _ =>
      .ite (ih.statements yes hyes).inBlock (ih.statements no hno).inBlock
  | while_ c body p =>
    obtain ⟨hc, hbody⟩ := within_append.1 h
    exact ih.whileLoop c body hc hbody
  | repeat_ body c until_ p =>
    obtain ⟨hbody, hc⟩ := within_append.1 h
    exact ih.repeatLoop body c until_ hbody hc
  | for_ item counter source body p =>
    obtain ⟨hsource, hbody⟩ := within_append.1 h
    refine (ih.expr source hsource).andThen fun v => ?_
    split
    · exact ih.forLoop item counter _ 0 body hbody
    · exact .fail
  | switch subject cases p =>
    obtain ⟨hsubject, hcases⟩ := within_append.1 h
    exact (ih.expr subject hsubject).andThen fun v => ih.chooseCase v cases hcases
  | break_ value p => exact ih.optional value h fun _ => .throw
  | continue_ p => exact .throw
  | return_ value p => exact ih.optional value h fun _ => .throw
  | throw_ value p => exact ih.optional value h fun _ => .fail
  | try_ body caught handler p => exact ih.try_succ body caught handler p h
  | import_ path newName p => exact ih.import_succ path newName p h
  | export_ name newName p =>
    refine .get_bind (fun _ => rfl) fun st _ => ?_
    split
    · exact (Blind.offer _ _).andThen fun _ => .done
    · exact .fail
  | block body p => exact (ih.statements body h).inBlock

theorem succ : AllBlind R (n + 1) where
  expr := ih.expr_succ
  exprs := ih.exprs_succ
  truth := ih.truth_succ
  callExpr := ih.callExpr_succ
  callNamed := ih.callNamed_succ
  callFunction := ih.callFunction_succ
  higher := ih.higher_succ
  eachItem := ih.eachItem_succ
  folded := ih.folded_succ
  sorted := ih.sorted_succ
  placed := ih.placed_succ
  reached := ih.reached_succ
  chainExpr := ih.chainExpr_succ
  follow := ih.follow_succ
  callMethod := ih.callMethod_succ
  statements := ih.statements_succ
  round := ih.round_succ
  whileLoop := ih.whileLoop_succ
  repeatLoop := ih.repeatLoop_succ
  forLoop := ih.forLoop_succ
  matchesAny := ih.matchesAny_succ
  chooseCase := ih.chooseCase_succ
  importModule := ih.importModule_succ
  statement := ih.statement_succ

end AllBlind

end ScriptHost.Rhai

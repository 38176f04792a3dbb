import ScriptHost.Lua.Machine

/-!
# Functions that handle errors

A library function that watches a call is told of the error that ends it. Printers and the
functions that run a wrapped thread pass failures of the host on as they are; all others go on
with the error as with a result (`Library.run_handles`). A machine that has taken any number of
steps still waits for computations of this kind only (`Machine.Handles.step`).
-/

namespace ScriptHost.Lua

/-- Does a function that watches a call pass failures of the host on? -/
def Builtin.passesOn : Builtin → Bool
  | .printer _ _ | .wrapped _ => true
  | _ => false

/-- The computation ends with a fault. -/
def Native.Fails : Native → Prop
  | .fail _ _ => True
  | _ => False

/-- What a function makes of the error of a call that it has watched: it fails with it if it passes
failures of the host on and this is one, and it does not fail at all if it does not pass them on. -/
def Builtin.Answers (f : Builtin) (next : Store → Except Value (List Value) → Native) : Prop :=
  if f.passesOn then ∀ s a, next s (.error (.failure a)) = .fail s (.value (.failure a))
  else ∀ s e, ¬ (next s (.error e)).Fails

namespace Builtin.Answers

variable {f : Builtin} {next : Store → Except Value (List Value) → Native}

theorem of_passesOn (hf : f.passesOn = true)
    (h : ∀ s a, next s (.error (.failure a)) = .fail s (.value (.failure a))) : f.Answers next := by
  rw [Builtin.Answers, if_pos hf]
  exact h

theorem of_not_fails (hf : f.passesOn = false) (h : ∀ s e, ¬ (next s (.error e)).Fails) :
    f.Answers next := by
  rw [Builtin.Answers, hf, if_neg Bool.false_ne_true]
  exact h

theorem eq_fail (h : f.Answers next) (hf : f.passesOn = true) (s : Store) (a : Nat) :
    next s (.error (.failure a)) = .fail s (.value (.failure a)) := by
  rw [Builtin.Answers, if_pos hf] at h
  exact h s a

theorem not_fails (h : f.Answers next) (hf : f.passesOn = false) (s : Store) (e : Value) :
    ¬ (next s (.error e)).Fails := by
  rw [Builtin.Answers, hf, if_neg Bool.false_ne_true] at h
  exact h s e

end Builtin.Answers

/-- Whatever call the computation of a function comes to watch, it answers the error of that call
as the function does. One that passes failures on lets no handler see them. -/
inductive Native.Handles (f : Builtin) : Native → Prop where
  | done (s : Store) (vs : List Value) : Native.Handles f (.done s vs)
  | fail (s : Store) (e : Fault) : Native.Handles f (.fail s e)
  | call {s : Store} {g : Value} {vs : List Value} {next : Store → List Value → Native}
      (hn : ∀ s vs, Native.Handles f (next s vs)) : Native.Handles f (.call s g vs next)
  | attempt {s : Store} {g : Value} {vs : List Value} {handler : Option Value}
      {next : Store → Except Value (List Value) → Native} (hh : f.passesOn → handler = none)
      (ha : f.Answers next) (hn : ∀ s r, Native.Handles f (next s r)) :
      Native.Handles f (.attempt s g vs handler next)
  | resume {s : Store} {thread : Nat} {vs : List Value}
      {next : Store → Except Value (List Value) → Native} (ha : f.Answers next)
      (hn : ∀ s r, Native.Handles f (next s r)) : Native.Handles f (.resume s thread vs next)
  | yield (s : Store) (vs : List Value) : Native.Handles f (.yield s vs)
  | canYield {s : Store} {next : Bool → Native} (hn : ∀ can, Native.Handles f (next can)) :
      Native.Handles f (.canYield s next)

namespace Native.Handles

variable {f : Builtin} {s : Store}

theorem ofExcept (x : Except Fault (List Value)) : (Native.ofExcept s x).Handles f := by
  cases x with
  | ok vs => exact .done s vs
  | error e => exact .fail s e

theorem ofPlain (g : Plain) (args : Args) : (Native.ofPlain g s args).Handles f := by
  rw [Native.ofPlain]
  split
  · exact .done _ _
  · exact .fail _ _

theorem reading {α : Type} (x : Except Fault α) {next : α → Native}
    (hn : ∀ a, (next a).Handles f) : (Native.reading s x next).Handles f := by
  cases x with
  | ok a => exact hn a
  | error e => exact .fail s e

theorem withText (v : Value) {next : Store → Bytes → Native}
    (hn : ∀ s text, (next s text).Handles f) : (Native.withText s v next).Handles f := by
  rw [Native.withText]
  split
  · exact hn s _
  · refine .call fun s vs => ?_
    split
    · exact hn s _
    · exact .fail s _

theorem withItem (object key : Value) {next : Store → Value → Native}
    (hn : ∀ s v, (next s v).Handles f) : (Native.withItem s object key next).Handles f := by
  rw [Native.withItem]
  split
  · exact hn s _
  · exact .call fun s vs => hn s _
  · exact .fail s _
  · exact .fail s _

theorem ite {c : Prop} [Decidable c] {m n : Native} (hm : m.Handles f) (hn : n.Handles f) :
    (if c then m else n).Handles f := by
  split
  · exact hm
  · exact hn

end Native.Handles

/-! ## The libraries -/

variable {f : Builtin} {s : Store}

namespace Basics

theorem pairs_handles (args : Args) : (pairs s args).Handles f := by
  refine .reading _ fun _ => ?_
  split
  · exact .done s _
  · exact .call fun s _ => .done s _

theorem nextIndex_handles (args : Args) : (nextIndex s args).Handles f :=
  .reading _ fun _ => .withItem _ _ fun s _ => .done s _

theorem require_handles (args : Args) : (require s args).Handles f := by
  refine .reading _ fun name => ?_
  split
  · split
    · exact .fail s _
    · exact .call fun _ _ => .done _ _
  · exact .done s _

theorem tostring_handles (args : Args) : (tostring s args).Handles f :=
  .reading _ fun v => .withText v fun s _ => .done s _

theorem pcall_handles (args : Args) : (pcall s args).Handles (.base .pcall) := by
  cases args with
  | nil => exact .fail s _
  | cons g args =>
    exact .attempt (fun _ => rfl) (.of_not_fails rfl fun _ _ => id) fun s _ => .done s _

theorem xpcall_handles (args : Args) : (xpcall s args).Handles (.base .xpcall) := by
  obtain _ | ⟨g, _ | ⟨handler, args⟩⟩ := args
  · exact .fail s _
  · exact .fail s _
  · exact .attempt (fun h => absurd h Bool.false_ne_true) (.of_not_fails rfl fun _ _ => id)
      fun s _ => .done s _

/-! ### Loading -/

theorem finishLoad_handles (args : Args) (text name : Bytes) :
    (finishLoad s args text name).Handles f := by
  unfold finishLoad
  dsimp only
  split
  · exact .done s _
  · split
    · exact .done _ _
    · exact .done s _

theorem readPieces_handles {reader : Value} {next : Store → Except Value Bytes → Native}
    (hf : f.passesOn = false) (hn : ∀ s text, (next s text).Handles f)
    (he : ∀ s e, ¬ (next s (.error e)).Fails) (fuel : Nat) (s : Store) (text : Bytes) :
    (readPieces reader next fuel s text).Handles f := by
  induction fuel generalizing s text with
  | zero => exact hn s _
  | succ fuel ih =>
    refine .attempt (fun _ => rfl) (.of_not_fails hf he) fun s r => ?_
    cases r with
    | error e => exact hn s _
    | ok results =>
      dsimp only
      split
      · exact hn s _
      · exact hn s _
      · split
        · exact ih s _
        · exact hn s _

theorem load_handles (args : Args) : (load s args).Handles (.base .load) := by
  unfold load
  split
  · exact .reading _ fun name => finishLoad_handles args _ name
  · refine .reading _ fun name => .reading _ fun reader => ?_
    refine readPieces_handles rfl (fun s text => ?_) (fun _ _ => id) maxPieces s []
    cases text with
    | ok text => exact finishLoad_handles args text name
    | error e => exact .done s _

/-! ### Printing -/

theorem failText_handles (e : Value) : (failText s e).Handles f := by
  unfold failText
  split
  · exact .fail s _
  · exact .withText _ fun _ _ => .fail _ _

theorem withTexts_handles {tostring : Value} {next : Store → List Bytes → Native}
    (hf : f.passesOn = true) (hn : ∀ s texts, (next s texts).Handles f) (vs : List Value)
    (s : Store) (texts : List Bytes) : (withTexts tostring next vs s texts).Handles f := by
  induction vs generalizing s texts with
  | nil => exact hn s _
  | cons v rest ih =>
    refine .attempt (fun _ => rfl) (.of_passesOn hf fun _ _ => rfl) fun s r => ?_
    cases r with
    | error e => exact failText_handles e
    | ok results =>
      dsimp only
      split
      · exact ih s _
      · exact .fail _ _

theorem print_handles (sink serial : Nat) (args : Args) :
    (print sink s args).Handles (.printer sink serial) := by
  refine .withItem _ _ fun s tostring => ?_
  have htexts : (withTexts tostring (writeLine sink) args s []).Handles (.printer sink serial) :=
    withTexts_handles rfl (fun s _ => .done _ _) args s []
  cases tostring with
  | closure _ | builtin _ => exact htexts
  | _ => exact .fail _ _

theorem run_handles (g : BaseFunction) (args : Args) : (run g s args).Handles (.base g) := by
  cases g with
  | load => exact load_handles args
  | pairs => exact pairs_handles args
  | pcall => exact pcall_handles args
  | require => exact require_handles args
  | tostring => exact tostring_handles args
  | xpcall => exact xpcall_handles args
  | print | warn => exact .done s _
  | _ => exact .ofPlain _ args

end Basics

namespace Format

theorem writeOne_handles (args : Args) (i : Nat) (d : Directive)
    {next : Store → Bytes → Native} (hn : ∀ s bs, (next s bs).Handles f) :
    (writeOne s args i d next).Handles f := by
  unfold writeOne
  refine .ite (.fail s _) ?_
  split
  case h_1 | h_2 | h_3 | h_4 | h_5 | h_6 | h_7 => -- a byte and integers
    exact .ite (.reading _ fun _ => hn s _) (.fail s _)
  case h_8 | h_9 | h_10 | h_11 | h_12 | h_13 | h_14 | h_15 => -- floats
    exact .ite (.reading _ fun _ => hn s _) (.fail s _)
  case h_16 => exact .ite (hn s _) (.fail s _)
  case h_17 => -- a constant of the language
    refine .ite (.fail s _) ?_
    split
    · exact hn s _
    · exact .fail s _
  case h_18 => -- a text
    refine .ite (.withText _ fun s text => ?_) (.fail s _)
    exact .ite (hn s _) (.ite (.fail s _) (hn s _))
  case h_19 => exact .fail s _

theorem write_handles (args : Args) (fuel : Nat) (s : Store) (i : Nat) (format written : Bytes) :
    (write args fuel s i format written).Handles f := by
  induction fuel generalizing s i format written with
  | zero => exact .done s _
  | succ fuel ih =>
    unfold write
    split
    · exact .done s _
    · exact ih s _ _ _
    · split
      · exact .fail s _
      · exact writeOne_handles args i _ fun s _ => ih s _ _ _
    · exact ih s _ _ _

end Format

namespace Strings

theorem putInPlace_handles (text : Array UInt8) (m : Pattern.Match)
    {next : Store → Bytes → Native} (hn : ∀ s bs, (next s bs).Handles f) (v : Value) :
    (putInPlace text m next s v).Handles f := by
  unfold putInPlace
  split
  · exact hn s _
  · exact hn s _
  · split
    · exact hn s _
    · exact .fail s _

theorem withReplacement_handles (text : Array UInt8) (m : Pattern.Match) (by_ : Value)
    {next : Store → Bytes → Native} (hn : ∀ s bs, (next s bs).Handles f) :
    (withReplacement s text m by_ next).Handles f := by
  unfold withReplacement
  split
  · exact .reading _ fun _ => hn s _
  · exact .reading _ fun _ => hn s _
  · exact .reading _ fun _ => .withItem _ _ fun _ v => putInPlace_handles text m hn v
  · exact .reading _ fun _ => .call fun _ _ => putInPlace_handles text m hn _

theorem replaceFrom_handles (text : Array UInt8) (p : Bytes) (by_ : Value) (anchored : Bool)
    (most fuel : Nat) (s : Store) (at_ : Nat) (last : Option Nat) (count : Nat) (written : Bytes) :
    (replaceFrom text p by_ anchored most fuel s at_ last count written).Handles f := by
  induction fuel generalizing s at_ last count written with
  | zero => exact .done s _
  | succ fuel ih =>
    unfold replaceFrom
    dsimp only
    split
    · exact .done s _
    · refine .reading _ fun found => ?_
      split
      · exact withReplacement_handles text _ by_ fun s _ => .ite (.done s _) (ih s _ _ _ _)
      · split
        · exact .ite (.done s _) (ih s _ _ _ _)
        · exact .done s _

theorem gsub_handles (args : Args) : (gsub s args).Handles f :=
  .reading _ fun _ => .reading _ fun _ => .reading _ fun _ => .reading _ fun _ =>
    replaceFrom_handles _ _ _ _ _ _ _ _ _ _ _

theorem format_handles (args : Args) : (format s args).Handles f :=
  .reading _ fun _ => Format.write_handles args _ s _ _ _

theorem trial_handles (compute : Arithmetic → Number → Number → Except Fault Number)
    (op : Arithmetic) (args : Args) : (trial compute op s args).Handles f := by
  unfold trial
  dsimp only
  split
  · exact .ofExcept _
  · split
    · exact .fail s _
    · exact .call fun s _ => .done s _

theorem run_handles (g : StringFunction) (args : Args) : (run g s args).Handles f := by
  cases g with
  | format => exact format_handles args
  | gsub => exact gsub_handles args
  | dump | pack | packsize | unpack => exact .fail s _
  | _ => exact .ofPlain _ args

end Strings

namespace Tables

theorem handledBefore_handles (a b : Value) {next : Store → Bool → Native}
    (hn : ∀ s is, (next s is).Handles f) : (handledBefore s a b next).Handles f := by
  unfold handledBefore
  split
  · exact .fail s _
  · exact .call fun s _ => hn s _

theorem before_handles (o : Order) (a b : Value) {next : Store → Bool → Native}
    (hn : ∀ s is, (next s is).Handles f) : (o.before s a b next).Handles f := by
  unfold Order.before
  split
  · exact .call fun s _ => hn s _
  · split
    · exact hn s _
    · exact hn s _
    · exact handledBefore_handles _ _ hn

theorem arrange_handles (o : Order) (a i j : Nat) {next : Store → Bool → Native}
    (hn : ∀ s was, (next s was).Handles f) : (arrange o a i j s next).Handles f := by
  exact before_handles o _ _ fun s _ => .ite (hn _ _) (hn s _)

theorem climb_handles (o : Order) (a : Nat) (pivot : Value) (top fuel i : Nat)
    {next : Store → Nat → Native} (hn : ∀ s i, (next s i).Handles f) :
    (climb o a pivot top fuel i s next).Handles f := by
  induction fuel generalizing i s with
  | zero => exact .fail s _
  | succ fuel ih =>
    exact before_handles o _ _ fun s _ => .ite (.ite (.fail s _) (ih _)) (hn s _)

theorem descend_handles (o : Order) (a : Nat) (pivot : Value) (i fuel j : Nat)
    {next : Store → Nat → Native} (hn : ∀ s j, (next s j).Handles f) :
    (descend o a pivot i fuel j s next).Handles f := by
  induction fuel generalizing j s with
  | zero => exact .fail s _
  | succ fuel ih =>
    exact before_handles o _ _ fun s _ => .ite (.ite (.fail s _) (ih _)) (hn s _)

theorem divide_handles (o : Order) (a : Nat) (pivot : Value) (low high fuel i j : Nat)
    {next : Store → Nat → Native} (hn : ∀ s p, (next s p).Handles f) :
    (divide o a pivot low high fuel i j s next).Handles f := by
  induction fuel generalizing i j s with
  | zero => exact .fail s _
  | succ fuel ih =>
    refine climb_handles o a pivot _ _ _ fun s i => ?_
    exact descend_handles o a pivot _ _ _ fun s j => .ite (hn _ _) (ih _ _)

theorem arrangeMiddle_handles (o : Order) (a low middle high : Nat) {next : Store → Native}
    (hn : ∀ s, (next s).Handles f) : (arrangeMiddle o a low middle high s next).Handles f := by
  exact arrange_handles o a _ _ fun s _ =>
    .ite (hn s) (arrange_handles o a _ _ fun s _ => hn s)

theorem sortBetween_handles (o : Order) (a fuel low high : Nat) {next : Store → Native}
    (hn : ∀ s, (next s).Handles f) : (sortBetween o a fuel low high s next).Handles f := by
  induction fuel generalizing low high s next with
  | zero => exact hn s
  | succ fuel ih =>
    refine .ite (hn s) (arrange_handles o a _ _ fun s _ => .ite (hn s) ?_)
    refine arrangeMiddle_handles o a _ _ _ fun s => .ite (hn s) ?_
    refine divide_handles o a _ _ _ _ _ _ fun s p => .ite ?_ ?_
    · exact ih _ _ fun s => ih _ _ hn
    · exact ih _ _ fun s => ih _ _ hn

theorem sort_handles (args : Args) : (sort s args).Handles f :=
  .reading _ fun _ => .reading _ fun _ => sortBetween_handles _ _ _ _ _ fun s => .done s _

theorem run_handles (g : TableFunction) (args : Args) : (run g s args).Handles f := by
  cases g with
  | pack => exact .ofPlain pack args
  | sort => exact sort_handles args
  | _ => exact .ofPlain _ args

end Tables

namespace Threads

theorem resumeWith_handles (thread : Nat) (args : Args)
    {next : Store → Except Value (List Value) → Native} (ha : f.Answers next)
    (hn : ∀ s r, (next s r).Handles f) : (resumeWith s thread args next).Handles f := by
  unfold resumeWith
  split
  · exact .resume ha hn
  · exact .resume ha hn
  · exact hn s _
  · exact hn s _
  · exact hn s _

theorem resume_handles (args : Args) : (resume s args).Handles (.coroutine .resume) :=
  .reading _ fun _ =>
    resumeWith_handles _ _ (.of_not_fails rfl fun _ _ => id) fun s _ => .done s _

theorem wrapped_handles (thread : Nat) (args : Args) :
    (wrapped thread s args).Handles (.wrapped thread) := by
  refine resumeWith_handles _ _ (.of_passesOn rfl fun _ _ => rfl) fun s r => ?_
  split
  · exact .done s _
  · exact .fail s _
  · exact .fail s _

theorem closeAll_not_fails {next : Store → Option Value → Native}
    (hn : ∀ s e, ¬ (next s e).Fails) (open_ : List (Value × Value)) (error : Option Value)
    (s : Store) : ¬ (closeAll open_ error s next).Fails := by
  cases open_ with
  | nil => exact hn s error
  | cons pair rest => exact id

theorem closeAll_handles {next : Store → Option Value → Native} (hf : f.passesOn = false)
    (hn : ∀ s e, (next s e).Handles f) (he : ∀ s e, ¬ (next s e).Fails)
    (open_ : List (Value × Value)) (error : Option Value) (s : Store) :
    (closeAll open_ error s next).Handles f := by
  induction open_ generalizing error s with
  | nil => exact hn s error
  | cons pair rest ih =>
    refine .attempt (fun _ => rfl) (.of_not_fails hf fun s e => ?_) fun s r => ?_
    · exact closeAll_not_fails he rest (some e) s
    · cases r with
      | ok _ => exact ih error s
      | error e => exact ih (some e) s

theorem close_handles (args : Args) : (close s args).Handles (.coroutine .close) := by
  refine .reading _ fun thread => ?_
  split
  · exact .done _ _
  · exact closeAll_handles rfl (fun _ _ => .done _ _) (fun _ _ => id) _ _ _
  · exact .done _ _
  · exact .fail s _
  · exact .fail s _

theorem run_handles (g : CoroutineFunction) (args : Args) :
    (run g s args).Handles (.coroutine g) := by
  cases g with
  | close => exact close_handles args
  | isyieldable => exact .canYield fun _ => .done s _
  | resume => exact resume_handles args
  | running => exact .done s _
  | yield => exact .yield s _
  | create | status | wrap => exact .ofPlain _ args

end Threads

namespace System

theorem run_handles (g : SystemFunction) (args : Args) : (run g s args).Handles f := by
  cases g with
  | difftime => exact .reading _ fun _ => .reading _ fun _ => .done s _
  | getenv | remove | rename => exact .reading _ fun _ => .done s _
  | exit | tmpname => exact .fail _ _
  | _ => exact .done s _

theorem runFile_handles (g : FileFunction) (args : Args) : (runFile g s args).Handles f := by
  cases g with
  | open_ | type => exact .reading _ fun _ => .done s _
  | _ => exact .fail s _

end System

/-- **Errors of watched calls.** Every library function handles them in its one way, at whatever
call of its computation. -/
theorem Library.run_handles (f : Builtin) (s : Store) (args : Args) :
    (Library.run f s args).Handles f := by
  cases f with
  | base g => exact Basics.run_handles g args
  | string g => exact Strings.run_handles g args
  | table g => exact Tables.run_handles g args
  | math g => exact .ofPlain _ args
  | coroutine g => exact Threads.run_handles g args
  | utf8 g => exact .ofPlain _ args
  | system g => exact System.run_handles g args
  | file g => exact System.runFile_handles g args
  | searchpath | loadlib | silent _ => exact .done s _
  | stringArithmetic op => exact Strings.trial_handles _ op args
  | nextIndex => exact Basics.nextIndex_handles args
  | nextCode | nextMatch _ _ _ _ => exact .ofPlain _ args
  | wrapped thread => exact Threads.wrapped_handles thread args
  | printer sink serial => exact Basics.print_handles sink serial args

end ScriptHost.Lua

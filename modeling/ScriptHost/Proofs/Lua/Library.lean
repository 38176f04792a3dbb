import ScriptHost.Proofs.Lua.Library.Basics
import ScriptHost.Proofs.Lua.Library.Numbers
import ScriptHost.Proofs.Lua.Library.Strings
import ScriptHost.Proofs.Lua.Library.Tables
import ScriptHost.Proofs.Lua.Native

/-!
# The libraries on renamed stores

The smaller libraries, and then the function of any library that is found by its name.
-/

/-! ## The utf8 and system libraries -/

namespace ScriptHost.Lua.CodePoints

variable {ρ : Renaming} {s t : Store}

theorem char_renamed (h : s.Renamed ρ t) (args : Args) :
    Agree ρ (Results ρ) (char s args) (char t (args.map (Value.rename ρ))) := by
  unfold char
  rw [List.length_map]
  refine (Agree.mapM (fun i => ?_) _).bindEq fun bytes => .done h rfl
  refine (h.intArgument args (i + 1)).bindEq fun n => ?_
  exact .ite (fun _ => .ok rfl) fun _ => .error rfl

theorem codepoint_renamed (h : s.Renamed ρ t) (args : Args) :
    Agree ρ (Results ρ) (codepoint s args) (codepoint t (args.map (Value.rename ρ))) := by
  refine (h.textArgument args 1).bindEq fun text => ?_
  refine (h.intOrArgument args 2 1).bindEq fun i => ?_
  refine (h.intOrArgument args 3 _).bindEq fun j => ?_
  rw [Args.value_rename, Value.truthy_rename]
  refine .ite (fun _ => .error rfl) fun _ => ?_
  refine .ite (fun _ => .error rfl) fun _ => ?_
  split
  · refine .done h ?_
    rw [List.map_map]
    rfl
  · exact .error rfl

theorem len_renamed (h : s.Renamed ρ t) (args : Args) :
    Agree ρ (Results ρ) (len s args) (len t (args.map (Value.rename ρ))) := by
  refine (h.textArgument args 1).bindEq fun text => ?_
  refine (h.intOrArgument args 2 1).bindEq fun i => ?_
  refine (h.intOrArgument args 3 (-1)).bindEq fun j => ?_
  rw [Args.value_rename, Value.truthy_rename]
  refine .ite (fun _ => .error rfl) fun _ => ?_
  refine .ite (fun _ => .error rfl) fun _ => ?_
  split <;> exact .done h rfl

theorem offset_renamed (h : s.Renamed ρ t) (args : Args) :
    Agree ρ (Results ρ) (offset s args) (offset t (args.map (Value.rename ρ))) := by
  refine (h.textArgument args 1).bindEq fun text => ?_
  refine (h.intArgument args 2).bindEq fun n => ?_
  refine (h.intOrArgument args 3 _).bindEq fun i => ?_
  refine .ite (fun _ => .error rfl) fun _ => ?_
  refine .ite (fun _ => .done h rfl) fun _ => ?_
  refine .ite (fun _ => .error rfl) fun _ => ?_
  by_cases hn : 0 < n
  · simp only [if_pos hn]
    split <;> exact .done h rfl
  · simp only [if_neg hn]
    split <;> exact .done h rfl

theorem nextCode_renamed (h : s.Renamed ρ t) (args : Args) :
    Agree ρ (Results ρ) (nextCode s args) (nextCode t (args.map (Value.rename ρ))) := by
  refine (h.textArgument args 1).bindEq fun text => ?_
  refine (h.intArgument args 2).bindEq fun at_ => ?_
  dsimp only
  split
  · exact .done h rfl
  · split
    · exact .ite (fun _ => .error rfl) fun _ => .done h rfl
    · exact .error rfl

theorem codes_renamed (h : s.Renamed ρ t) (args : Args) :
    Agree ρ (Results ρ) (codes s args) (codes t (args.map (Value.rename ρ))) := by
  refine (h.textArgument args 1).bindEq fun text => ?_
  exact .ite (fun _ => .error rfl) fun _ => .done h rfl

/-- **Functions of code points.** They do the same on stores that differ by a renaming. -/
theorem run_renamed (f : Utf8Function) (h : s.Renamed ρ t) (args : Args) :
    (run f s args).Renamed ρ (run f t (args.map (Value.rename ρ))) := by
  cases f with
  | char => exact .ofPlain h (char_renamed h args)
  | codepoint => exact .ofPlain h (codepoint_renamed h args)
  | codes => exact .ofPlain h (codes_renamed h args)
  | len => exact .ofPlain h (len_renamed h args)
  | offset => exact .ofPlain h (offset_renamed h args)

end ScriptHost.Lua.CodePoints

namespace ScriptHost.Lua.System

variable {ρ : Renaming} {s t : Store}

theorem exitStatus_rename (args : Args) :
    exitStatus (List.head? (args.map (Value.rename ρ))) = exitStatus (List.head? args) := by
  cases args with
  | nil => rfl
  | cons v rest =>
    cases v with
    | bool b => cases b <;> rfl
    | number n => cases n <;> rfl
    | _ => rfl

theorem exit_renamed (h : s.Renamed ρ t) (args : Args) :
    (exit s args).Renamed ρ (exit t (args.map (Value.rename ρ))) := by
  unfold exit
  rw [exitStatus_rename]
  exact .fail (h.newFailure (.exit (exitStatus (List.head? args))))
    (congrArg Fault.value (h.newFailure_address (.exit (exitStatus (List.head? args)))))

/-- **System functions.** They do the same on stores that differ by a renaming. -/
theorem run_renamed (f : SystemFunction) (h : s.Renamed ρ t) (args : Args) :
    (run f s args).Renamed ρ (run f t (args.map (Value.rename ρ))) := by
  cases f with
  | clock | date | execute | setlocale | time => exact .done h rfl
  | difftime =>
    refine .readingEq h (h.floatArgument args 1) fun a => ?_
    exact .readingEq h (h.floatArgument args 2) fun b => .done h rfl
  | exit => exact exit_renamed h args
  | getenv | remove | rename => exact .readingEq h (h.textArgument args 1) fun _ => .done h rfl
  | tmpname => exact .fail h rfl

/-- **Functions of files.** They do the same on stores that differ by a renaming. -/
theorem runFile_renamed (f : FileFunction) (h : s.Renamed ρ t) (args : Args) :
    (runFile f s args).Renamed ρ (runFile f t (args.map (Value.rename ρ))) := by
  cases f with
  | open_ => exact .readingEq h (h.textArgument args 1) fun _ => .done h rfl
  | type => exact .reading h (Store.Renamed.anyArgument args 1) fun _ _ _ => .done h rfl
  | _ => exact .fail h rfl

end ScriptHost.Lua.System

/-! ## The coroutine library -/

namespace ScriptHost.Lua.Threads

variable {ρ : Renaming} {s t : Store}

theorem create_renamed (h : s.Renamed ρ t) (args : Args) :
    Agree ρ (Results ρ) (create s args) (create t (args.map (Value.rename ρ))) := by
  refine (h.functionArgument args 1).bind ?_
  rintro f _ rfl
  refine .done (h.newThread (.fresh f)) ?_
  exact congrArg (fun a => [Value.thread a]) (h.newThread_address (.fresh f))

theorem wrap_renamed (h : s.Renamed ρ t) (args : Args) :
    Agree ρ (Results ρ) (wrap s args) (wrap t (args.map (Value.rename ρ))) := by
  refine (h.functionArgument args 1).bind ?_
  rintro f _ rfl
  refine .done (h.newThread (.fresh f)) ?_
  exact congrArg (fun a => [Value.builtin (.wrapped a)]) (h.newThread_address (.fresh f))

theorem resumeWith_renamed (h : s.Renamed ρ t) (thread : Nat) {args args' : Args}
    (ha : args' = args.map (Value.rename ρ))
    {next other : Store → Except Value (List Value) → Native}
    (hn : ∀ {s t : Store}, s.Renamed ρ t → ∀ r,
      (next s r).Renamed ρ (other t (renameResult ρ r))) :
    (resumeWith s thread args next).Renamed ρ
      (resumeWith t (ρ.threads thread) args' other) := by
  rw [resumeWith, resumeWith, h.thread]
  cases s.thread thread with
  | fresh _ | suspended _ => exact .resume h rfl ha hn
  | running | waiting => exact hn h (.error (.string "cannot resume non-suspended coroutine"))
  | dead _ => exact hn h (.error (.string "cannot resume dead coroutine"))

theorem resume_renamed (h : s.Renamed ρ t) (args : Args) :
    (resume s args).Renamed ρ (resume t (args.map (Value.rename ρ))) := by
  refine .reading h (h.threadArgument args 1) ?_
  rintro thread _ rfl
  refine resumeWith_renamed h thread List.map_drop.symm fun h r => ?_
  cases r <;> exact .done h rfl

theorem wrapped_renamed (h : s.Renamed ρ t) (thread : Nat) (args : Args) :
    (wrapped thread s args).Renamed ρ
      (wrapped (ρ.threads thread) t (args.map (Value.rename ρ))) := by
  refine resumeWith_renamed h thread rfl fun h r => ?_
  cases r with
  | ok vs => exact .done h rfl
  | error e => cases e <;> exact .fail h rfl

theorem status_renamed (h : s.Renamed ρ t) (args : Args) :
    Agree ρ (Results ρ) (status s args) (status t (args.map (Value.rename ρ))) := by
  refine (h.threadArgument args 1).bind ?_
  rintro thread _ rfl
  rw [h.thread]
  refine .done h ?_
  cases s.thread thread <;> rfl

/-! ## Closing -/

theorem closeAll_renamed (open_ : List (Value × Value)) (error : Option Value)
    (h : s.Renamed ρ t) {next other : Store → Option Value → Native}
    (hn : ∀ {s t : Store}, s.Renamed ρ t → ∀ e,
      (next s e).Renamed ρ (other t (e.map (Value.rename ρ)))) :
    (closeAll open_ error s next).Renamed ρ
      (closeAll (open_.map (renamePair ρ)) (error.map (Value.rename ρ)) t other) := by
  induction open_ generalizing error s t with
  | nil => exact hn h error
  | cons pair rest ih =>
    refine .attempt h rfl ?_ rfl fun h r => ?_
    · cases error <;> rfl
    · cases r with
      | ok _ => exact ih error h
      | error e => exact ih (some e) h

theorem guarded_rename (h : s.Renamed ρ t) (a : Activation) :
    guarded t (a.rename ρ) = (guarded s a).map (renamePair ρ) := by
  rw [guarded, guarded, List.map_map]
  refine List.map_congr_left fun slot _ => ?_
  have hslot : (a.rename ρ).slots.getD slot 0 = ρ.cells (a.slots.getD slot 0) :=
    getD_cells a.slots slot
  rw [hslot, h.cell]
  exact Prod.ext (h.event _ "__close") rfl

theorem finishClose_renamed (h : s.Renamed ρ t) (thread : Nat) (error : Option Value) :
    (finishClose thread s error).Renamed ρ
      (finishClose (ρ.threads thread) t (error.map (Value.rename ρ))) := by
  refine .done (h.setThread thread (.dead none)) ?_
  cases error <;> rfl

theorem close_renamed (h : s.Renamed ρ t) (args : Args) :
    (close s args).Renamed ρ (close t (args.map (Value.rename ρ))) := by
  refine .reading h (h.threadArgument args 1) ?_
  rintro thread _ rfl
  rw [h.thread]
  cases s.thread thread with
  | fresh f => exact finishClose_renamed h thread none
  | suspended calls =>
    have hopen : (calls.map (Activation.rename ρ)).flatMap (guarded t) =
        (calls.flatMap (guarded s)).map (renamePair ρ) := by
      rw [List.flatMap_map, List.map_flatMap]
      exact congrArg (List.flatMap · calls) (funext (guarded_rename h))
    show (closeAll _ _ _ _).Renamed ρ
      (closeAll ((calls.map (Activation.rename ρ)).flatMap (guarded t)) _ _ _)
    rw [hopen]
    exact closeAll_renamed _ none (h.setThread thread (.dead none))
      fun h e => finishClose_renamed h thread e
  | running | waiting => exact .fail h rfl
  | dead error => exact finishClose_renamed h thread error

/-- **Functions of coroutines.** They do the same on stores that differ by a renaming. -/
theorem run_renamed (f : CoroutineFunction) (h : s.Renamed ρ t) (args : Args) :
    (run f s args).Renamed ρ (run f t (args.map (Value.rename ρ))) := by
  cases f with
  | close => exact close_renamed h args
  | create => exact .ofPlain h (create_renamed h args)
  | isyieldable => exact .canYield h fun can => .done h rfl
  | resume => exact resume_renamed h args
  | running =>
    have hmain : (t.current == Store.mainThread) = (s.current == Store.mainThread) := by
      simp only [h.current, Bool.beq_eq_decide_eq, Renaming.threads_eq_main]
    refine .done h ?_
    rw [hmain, h.current]
    rfl
  | status => exact .ofPlain h (status_renamed h args)
  | wrap => exact .ofPlain h (wrap_renamed h args)
  | yield => exact .yield h rfl

end ScriptHost.Lua.Threads

/-! ## All libraries -/

namespace ScriptHost.Lua.Library

variable {ρ : Renaming} {s t : Store}

/-- The functions that are made while scripts run have no names in the libraries. -/
@[simp]
theorem qualifiedName?_rename (f : Builtin) :
    qualifiedName? (f.rename ρ) = qualifiedName? f := by
  cases f <;> rfl

/-- **Library functions.** They do the same on stores that differ by a renaming. -/
theorem run_renamed (f : Builtin) (h : s.Renamed ρ t) (args : Args) :
    (run f s args).Renamed ρ (run (f.rename ρ) t (args.map (Value.rename ρ))) := by
  cases f with
  | base f => exact Basics.run_renamed f h args
  | string f => exact Strings.run_renamed f h args
  | table f => exact Tables.run_renamed f h args
  | math f => exact Maths.run_renamed f h args
  | coroutine f => exact Threads.run_renamed f h args
  | utf8 f => exact CodePoints.run_renamed f h args
  | system f => exact System.run_renamed f h args
  | file f => exact System.runFile_renamed f h args
  | searchpath | loadlib | silent _ => exact .done h rfl
  | stringArithmetic op => exact Strings.trial_renamed op h args
  | nextIndex => exact Basics.nextIndex_renamed h args
  | nextCode => exact .ofPlain h (CodePoints.nextCode_renamed h args)
  | nextMatch text pattern position last =>
    exact .ofPlain h (Strings.stepMatches_renamed text pattern position last h args)
  | wrapped thread => exact Threads.wrapped_renamed h thread args
  | printer sink _ => exact Basics.print_renamed sink h args

end ScriptHost.Lua.Library

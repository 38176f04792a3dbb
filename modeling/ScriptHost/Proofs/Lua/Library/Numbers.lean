import ScriptHost.Proofs.Lua.Native

/-!
# The math library on renamed stores

The generator of random numbers stands in cells that every store has at the same places.
-/

namespace ScriptHost.Lua.Maths

variable {ρ : Renaming} {s t : Store}

theorem onFloat_renamed (f : Float → Float) (h : s.Renamed ρ t) (args : Args) :
    Agree ρ (Results ρ) (onFloat f s args) (onFloat f t (args.map (Value.rename ρ))) :=
  (h.floatArgument args 1).bindEq fun _ => .done h rfl

theorem rename_rounded (x : Float) : (rounded x).rename ρ = rounded x := by
  rw [rounded]
  split <;> rfl

theorem rounding_renamed (f : Float → Float) (h : s.Renamed ρ t) (args : Args) :
    Agree ρ (Results ρ) (rounding f s args) (rounding f t (args.map (Value.rename ρ))) := by
  refine (h.numberArgument args 1).bindEq fun n => ?_
  cases n with
  | int n => exact .done h rfl
  | float x => exact .done h (congrArg (fun v => [v]) (rename_rounded (f x)).symm)

theorem abs_renamed (h : s.Renamed ρ t) (args : Args) :
    Agree ρ (Results ρ) (abs s args) (abs t (args.map (Value.rename ρ))) := by
  refine (h.numberArgument args 1).bindEq fun n => ?_
  cases n <;> exact .done h rfl

theorem extreme_renamed (replaces : Number → Number → Bool) (h : s.Renamed ρ t) (args : Args) :
    Agree ρ (Results ρ) (extreme replaces s args)
      (extreme replaces t (args.map (Value.rename ρ))) := by
  refine (h.numberArgument args 1).bindEq fun first => ?_
  rw [List.length_map]
  refine (Agree.foldlM (fun found i => ?_) _ first).bindEq fun found => .done h rfl
  exact (h.numberArgument args (i + 2)).bindEq fun n => .ok rfl

theorem fmod_renamed (h : s.Renamed ρ t) (args : Args) :
    Agree ρ (Results ρ) (fmod s args) (fmod t (args.map (Value.rename ρ))) := by
  refine (h.numberArgument args 1).bindEq fun a => ?_
  refine (h.numberArgument args 2).bindEq fun b => ?_
  cases a with
  | int a =>
    cases b with
    | int b => exact .ite (fun _ => .error rfl) fun _ => .done h rfl
    | float b => exact .done h rfl
  | float a => exact .done h rfl

theorem adjacent_renamed (h : s.Renamed ρ t) (args : Args) :
    Agree ρ (· = ·) (adjacent s args) (adjacent t (args.map (Value.rename ρ))) := by
  rw [adjacent, adjacent, Args.isNoneOrNil_rename]
  exact .ite (fun _ => .ok rfl) fun _ => h.floatArgument args 2

theorem atan_renamed (h : s.Renamed ρ t) (args : Args) :
    Agree ρ (Results ρ) (atan s args) (atan t (args.map (Value.rename ρ))) := by
  refine (h.floatArgument args 1).bindEq fun y => ?_
  exact (adjacent_renamed h args).bindEq fun x => .done h rfl

theorem modf_renamed (h : s.Renamed ρ t) (args : Args) :
    Agree ρ (Results ρ) (modf s args) (modf t (args.map (Value.rename ρ))) := by
  refine (h.numberArgument args 1).bindEq fun n => ?_
  cases n <;> exact .done h rfl

theorem log_renamed (h : s.Renamed ρ t) (args : Args) :
    Agree ρ (Results ρ) (log s args) (log t (args.map (Value.rename ρ))) := by
  refine (h.floatArgument args 1).bindEq fun x => ?_
  rw [Args.isNoneOrNil_rename]
  refine .ite (fun _ => .done h rfl) fun _ => ?_
  exact (h.floatArgument args 2).bindEq fun base => .done h rfl

theorem tointeger_renamed (h : s.Renamed ρ t) (args : Args) :
    Agree ρ (Results ρ) (tointeger s args) (tointeger t (args.map (Value.rename ρ))) := by
  unfold tointeger
  rw [Args.value_rename, Value.int?_rename]
  split
  · exact .done h rfl
  · exact (Store.Renamed.anyArgument args 1).bind fun _ _ _ => .done h rfl

theorem type_renamed (h : s.Renamed ρ t) (args : Args) :
    Agree ρ (Results ρ) (type s args) (type t (args.map (Value.rename ρ))) := by
  have hany : Agree ρ (Results ρ) (Args.any args 1 >>= fun _ => result .nil s)
      (Args.any (args.map (Value.rename ρ)) 1 >>= fun _ => result .nil t) :=
    (Store.Renamed.anyArgument args 1).bind fun _ _ _ => .done h rfl
  unfold type
  rw [Args.value_rename]
  cases Args.value args 1 with
  | number n => cases n <;> exact .done h rfl
  | _ => exact hany

theorem ult_renamed (h : s.Renamed ρ t) (args : Args) :
    Agree ρ (Results ρ) (ult s args) (ult t (args.map (Value.rename ρ))) := by
  refine (h.intArgument args 1).bindEq fun a => ?_
  exact (h.intArgument args 2).bindEq fun b => .done h rfl

/-! ## Random numbers -/

theorem lt_fixedCells {c : Nat} (hc : c ∈ randomCells) : c < Store.fixedCells := by
  revert c
  decide

theorem randomState_renamed (h : s.Renamed ρ t) : randomState t = randomState s := by
  refine List.map_congr_left fun c hc => ?_
  rw [h.cell_fixed (lt_fixedCells hc)]
  cases s.cell c <;> rfl

theorem setRandomState_renamed (h : s.Renamed ρ t) (words : List UInt64) :
    (setRandomState s words).Renamed ρ (setRandomState t words) := by
  have go : ∀ (cells : List (Nat × UInt64)), (∀ x ∈ cells, x.1 < Store.fixedCells) →
      ∀ {s t : Store}, s.Renamed ρ t →
      (cells.foldl (fun s x => s.setCell x.1 (.int (.ofUInt64 x.2))) s).Renamed ρ
        (cells.foldl (fun s x => s.setCell x.1 (.int (.ofUInt64 x.2))) t) := by
    intro cells
    induction cells with
    | nil => exact fun _ _ _ h => h
    | cons x rest ih =>
      intro hx s t h
      have hset := h.setCell x.1 (.int (.ofUInt64 x.2))
      rw [ρ.cells_fixed x.1 (hx x List.mem_cons_self)] at hset
      exact ih (fun y hy => hx y (List.mem_cons_of_mem _ hy)) hset
  exact go _ (fun x hx => lt_fixedCells (List.of_mem_zip hx).1) h

theorem between_renamed (position : Nat) (r : UInt64) (words : List UInt64) (low high : Int64)
    (h : s.Renamed ρ t) :
    Agree ρ (Results ρ) (between position r words low high s)
      (between position r words low high t) :=
  .ite (fun _ => .error rfl) fun _ => .done (setRandomState_renamed h _) rfl

theorem random_renamed (h : s.Renamed ρ t) (args : Args) :
    Agree ρ (Results ρ) (random s args) (random t (args.map (Value.rename ρ))) := by
  unfold random
  rw [randomState_renamed h, List.length_map]
  dsimp only
  split
  · exact .done (setRandomState_renamed h _) rfl
  · refine (h.intArgument args 1).bindEq fun high => ?_
    exact .ite (fun _ => .done (setRandomState_renamed h _) rfl) fun _ =>
      between_renamed _ _ _ _ _ h
  · refine (h.intArgument args 1).bindEq fun low => ?_
    exact (h.intArgument args 2).bindEq fun high => between_renamed _ _ _ _ _ h
  · exact .error rfl

theorem randomseed_renamed (h : s.Renamed ρ t) (args : Args) :
    Agree ρ (Results ρ) (randomseed s args) (randomseed t (args.map (Value.rename ρ))) := by
  have hempty : List.isEmpty (args.map (Value.rename ρ)) = List.isEmpty args := by
    cases args <;> rfl
  unfold randomseed
  rw [hempty]
  refine .ite (fun _ => .done (setRandomState_renamed h _) rfl) fun _ => ?_
  refine (h.numberArgument args 1).bindEq fun first => ?_
  exact (h.intOrArgument args 2 0).bindEq fun second => .done (setRandomState_renamed h _) rfl

/-- **Functions of numbers.** They do the same on stores that differ by a renaming. -/
theorem run_renamed (f : MathFunction) (h : s.Renamed ρ t) (args : Args) :
    (run f s args).Renamed ρ (run f t (args.map (Value.rename ρ))) := by
  cases f with
  | abs => exact .ofPlain h (abs_renamed h args)
  | acos | asin | cos | deg | exp | rad | sin | sqrt | tan =>
    exact .ofPlain h (onFloat_renamed _ h args)
  | atan => exact .ofPlain h (atan_renamed h args)
  | ceil | floor => exact .ofPlain h (rounding_renamed _ h args)
  | fmod => exact .ofPlain h (fmod_renamed h args)
  | log => exact .ofPlain h (log_renamed h args)
  | max | min => exact .ofPlain h (extreme_renamed _ h args)
  | modf => exact .ofPlain h (modf_renamed h args)
  | random => exact .ofPlain h (random_renamed h args)
  | randomseed => exact .ofPlain h (randomseed_renamed h args)
  | tointeger => exact .ofPlain h (tointeger_renamed h args)
  | type => exact .ofPlain h (type_renamed h args)
  | ult => exact .ofPlain h (ult_renamed h args)

end ScriptHost.Lua.Maths

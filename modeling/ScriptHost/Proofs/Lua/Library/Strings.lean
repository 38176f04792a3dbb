import ScriptHost.Proofs.Lua.Native

/-!
# The string library on renamed stores
-/

namespace ScriptHost.Lua.Strings

variable {ρ : Renaming} {s t : Store}

/-! ## Texts and patterns -/

theorem liftPattern_agree {α : Type} (r : Pattern.Result α) :
    Agree ρ (· = ·) (liftPattern r) (liftPattern r) := by
  cases r with
  | ok a => exact .ok rfl
  | error e => exact .error rfl

theorem expand_agree (m : Pattern.Match) (text : Array UInt8) (fuel : Nat) (bs : Bytes) :
    Agree ρ (· = ·) (expand m text fuel bs) (expand m text fuel bs) := by
  fun_induction expand m text fuel bs with
  | case1 | case2 => exact .ok rfl
  | case3 _ _ ih | case4 _ _ ih => exact ih.bindEq fun _ => .ok rfl
  | case5 _ d rest _ _ _ ih =>
    refine (liftPattern_agree _).bindEq fun values => ?_
    split
    · exact ih.bindEq fun _ => .ok rfl
    · exact .error rfl
  | case6 | case7 => exact .error rfl
  | case8 _ _ _ _ ih => exact ih.bindEq fun _ => .ok rfl

theorem nextMatch_agree (text : Array UInt8) (p : Bytes) (places at_ : Nat) (last : Option Nat) :
    Agree ρ (· = ·) (nextMatch text p places at_ last) (nextMatch text p places at_ last) := by
  induction places generalizing at_ with
  | zero => exact .ok rfl
  | succ places ih =>
    refine (liftPattern_agree (Pattern.at? text p at_)).bindEq fun found => ?_
    cases found with
    | none => exact ih _
    | some m => exact .ite (fun _ => ih _) fun _ => .ok rfl

theorem captureValue_rename (c : Bytes ⊕ Nat) : (captureValue c).rename ρ = captureValue c := by
  cases c <;> rfl

theorem map_captureValue_rename (cs : List (Bytes ⊕ Nat)) :
    (cs.map captureValue).map (Value.rename ρ) = cs.map captureValue := by
  rw [List.map_map]
  exact List.map_congr_left fun c _ => captureValue_rename c

/-! ## Replacing -/

theorem putInPlace_renamed (text : Array UInt8) (m : Pattern.Match)
    {next other : Store → Bytes → Native}
    (hn : ∀ {s t : Store}, s.Renamed ρ t → ∀ bs, (next s bs).Renamed ρ (other t bs))
    (h : s.Renamed ρ t) (v : Value) :
    (putInPlace text m next s v).Renamed ρ (putInPlace text m other t (v.rename ρ)) := by
  cases v with
  | nil => exact hn h _
  | bool b => cases b <;> first | exact hn h _ | exact .fail h rfl
  | string _ | number _ => exact hn h _
  | _ => exact .fail h rfl

theorem withReplacement_renamed (text : Array UInt8) (m : Pattern.Match) (by_ : Value)
    {next other : Store → Bytes → Native}
    (hn : ∀ {s t : Store}, s.Renamed ρ t → ∀ bs, (next s bs).Renamed ρ (other t bs))
    (h : s.Renamed ρ t) :
    (withReplacement s text m by_ next).Renamed ρ
      (withReplacement t text m (by_.rename ρ) other) := by
  have values := liftPattern_agree (ρ := ρ) (m.values text true)
  cases by_ with
  | string _ | number _ => exact .readingEq h (expand_agree m text _ _) fun bs => hn h bs
  | table a =>
    refine .readingEq h values fun vs => .withItem h rfl ?_ fun h v =>
      putInPlace_renamed text m hn h v
    rw [← Value.headD_rename, map_captureValue_rename]
  | _ =>
    refine .readingEq h values fun vs =>
      .call h rfl (map_captureValue_rename vs).symm fun h vs => ?_
    rw [Value.headD_rename]
    exact putInPlace_renamed text m hn h _

theorem replaceFrom_renamed (text : Array UInt8) (p : Bytes) (by_ : Value) (anchored : Bool)
    (most fuel : Nat) (h : s.Renamed ρ t) (at_ : Nat) (last : Option Nat) (count : Nat)
    (written : Bytes) :
    (replaceFrom text p by_ anchored most fuel s at_ last count written).Renamed ρ
      (replaceFrom text p (by_.rename ρ) anchored most fuel t at_ last count written) := by
  induction fuel generalizing s t at_ last count written with
  | zero => exact .done h rfl
  | succ fuel ih =>
    refine .ite (fun _ => .done h rfl) fun _ => ?_
    refine .readingEq h (liftPattern_agree _) fun found => ?_
    split
    · refine withReplacement_renamed text _ by_ (fun h bs => ?_) h
      exact .ite (fun _ => .done h rfl) fun _ => ih h _ _ _ _
    · split
      · exact .ite (fun _ => .done h rfl) fun _ => ih h _ _ _ _
      · exact .done h rfl

theorem replacement_renamed (h : s.Renamed ρ t) (args : Args) :
    Agree ρ (fun v w => w = v.rename ρ) (replacement s args)
      (replacement t (args.map (Value.rename ρ))) := by
  rw [replacement, replacement, Args.value_rename]
  cases Args.value args 3 with
  | string _ | number _ | table _ | closure _ | builtin _ => exact .ok rfl
  | _ => exact h.wrongType args 3 _

theorem gsub_renamed (h : s.Renamed ρ t) (args : Args) :
    (gsub s args).Renamed ρ (gsub t (args.map (Value.rename ρ))) := by
  refine .readingEq h (h.textArgument args 1) fun text => ?_
  refine .readingEq h (h.textArgument args 2) fun p => ?_
  refine .reading h (replacement_renamed h args) ?_
  rintro by_ _ rfl
  refine .readingEq h (h.intOrArgument args 4 _) fun most => ?_
  exact replaceFrom_renamed _ _ by_ _ _ _ h 0 none 0 []

/-! ## Iterators over matches -/

theorem stepMatches_renamed (text pattern : Bytes) (position last : Nat) (h : s.Renamed ρ t)
    (args : Args) :
    Agree ρ (Results ρ) (stepMatches text pattern position last s args)
      (stepMatches text pattern (ρ.cells position) (ρ.cells last) t
        (args.map (Value.rename ρ))) := by
  unfold stepMatches
  simp only [h.cell, Value.int?_rename]
  refine (nextMatch_agree _ _ _ _ _).bindEq fun found => ?_
  cases found with
  | none => exact .done (h.setCell position _) rfl
  | some m =>
    refine (liftPattern_agree _).bindEq fun values => ?_
    exact .done ((h.setCell position _).setCell last _) (map_captureValue_rename values).symm

theorem gmatch_renamed (h : s.Renamed ρ t) (args : Args) :
    Agree ρ (Results ρ) (gmatch s args) (gmatch t (args.map (Value.rename ρ))) := by
  refine (h.textArgument args 1).bindEq fun text => ?_
  refine (h.textArgument args 2).bindEq fun p => ?_
  refine (h.intOrArgument args 3 1).bindEq fun first => ?_
  let start := Value.ofNat (min (firstPlace first text.length - 1) (text.length + 1))
  have hp := h.newCell start
  refine .done (hp.newCell .nil) ?_
  have hposition := h.newCell_address start
  have hlast := hp.newCell_address .nil
  have hv := congr (congrArg (fun a b => [Value.builtin (.nextMatch text p a b)]) hposition) hlast
  exact hv

/-! ## Functions of texts -/

theorem find_renamed (findOnly : Bool) (h : s.Renamed ρ t) (args : Args) :
    Agree ρ (Results ρ) (find findOnly s args) (find findOnly t (args.map (Value.rename ρ))) := by
  refine (h.textArgument args 1).bindEq fun text => ?_
  refine (h.textArgument args 2).bindEq fun p => ?_
  refine (h.intOrArgument args 3 1).bindEq fun first => ?_
  refine .ite (fun _ => .done h rfl) fun _ => ?_
  rw [Args.value_rename, Value.truthy_rename]
  refine .ite (fun _ => ?_) fun _ => ?_
  · split <;> exact .done h rfl
  · refine (liftPattern_agree _).bindEq fun found => ?_
    cases found with
    | none => exact .done h rfl
    | some m =>
      refine (liftPattern_agree _).bindEq fun values => .done h ?_
      cases findOnly
      · exact (map_captureValue_rename values).symm
      · rw [if_pos rfl, List.map_cons, List.map_cons, map_captureValue_rename]
        rfl

theorem rep_renamed (h : s.Renamed ρ t) (args : Args) :
    Agree ρ (Results ρ) (rep s args) (rep t (args.map (Value.rename ρ))) := by
  refine (h.textArgument args 1).bindEq fun text => ?_
  refine (h.intArgument args 2).bindEq fun n => ?_
  refine (h.textOrArgument args 3 []).bindEq fun sep => ?_
  refine .ite (fun _ => .done h rfl) fun _ => ?_
  exact .ite (fun _ => .error rfl) fun _ => .done h rfl

theorem byte_renamed (h : s.Renamed ρ t) (args : Args) :
    Agree ρ (Results ρ) (byte s args) (byte t (args.map (Value.rename ρ))) := by
  refine (h.textArgument args 1).bindEq fun text => ?_
  refine (h.intOrArgument args 2 1).bindEq fun i => ?_
  refine (h.intOrArgument args 3 i).bindEq fun last => .done h ?_
  rw [List.map_map]
  rfl

theorem char_renamed (h : s.Renamed ρ t) (args : Args) :
    Agree ρ (Results ρ) (char s args) (char t (args.map (Value.rename ρ))) := by
  unfold char
  rw [List.length_map]
  refine (Agree.mapM (fun i => ?_) _).bindEq fun bytes => .done h rfl
  refine (h.intArgument args (i + 1)).bindEq fun n => ?_
  exact .ite (fun _ => .ok rfl) fun _ => .error rfl

theorem onText_renamed {f : Bytes → Value} (hf : ∀ bs, (f bs).rename ρ = f bs)
    (h : s.Renamed ρ t) (args : Args) :
    Agree ρ (Results ρ) (onText f s args) (onText f t (args.map (Value.rename ρ))) :=
  (h.textArgument args 1).bindEq fun text => .done h (congrArg (fun v => [v]) (hf text).symm)

theorem sub_renamed (h : s.Renamed ρ t) (args : Args) :
    Agree ρ (Results ρ) (sub s args) (sub t (args.map (Value.rename ρ))) := by
  refine (h.textArgument args 1).bindEq fun text => ?_
  refine (h.intArgument args 2).bindEq fun first => ?_
  exact (h.intOrArgument args 3 (-1)).bindEq fun last => .done h rfl

/-! ## Arithmetic of texts -/

theorem trialHandler_rename (h : s.Renamed ρ t) (op : Arithmetic) (v : Value) :
    trialHandler t op (v.rename ρ) = (trialHandler s op v).rename ρ := by
  have he := h.event v (Bytes.ofString ("__" ++ op.name))
  cases v with
  | string _ => rfl
  | _ => exact he

theorem trial_renamed (op : Arithmetic) (h : s.Renamed ρ t) (args : Args) :
    (trial Arithmetic.compute op s args).Renamed ρ
      (trial Arithmetic.compute op t (args.map (Value.rename ρ))) := by
  unfold trial
  simp only [Args.value_rename, Value.number?_rename, Value.typeName_rename,
    trialHandler_rename h]
  split
  · rename_i x y _ _
    cases hc : op.compute x y with
    | ok n => exact .done h rfl
    | error e =>
      obtain ⟨text, rfl⟩ := Store.Renamed.compute_error op x y hc
      exact .fail h rfl
  · cases trialHandler s op (Args.value args 2) with
    | nil => exact .fail h rfl
    | _ =>
      refine .call h rfl rfl fun h vs => .done h ?_
      rw [Value.headD_rename]
      rfl

end ScriptHost.Lua.Strings

/-! ## Formatted texts -/

namespace ScriptHost.Lua.Format

variable {ρ : Renaming} {s t : Store}

theorem constant?_rename (v : Value) : constant? (v.rename ρ) = constant? v := by cases v <;> rfl

theorem writeOne_renamed (d : Directive) {next other : Store → Bytes → Native}
    (hn : ∀ {s t : Store}, s.Renamed ρ t → ∀ bs, (next s bs).Renamed ρ (other t bs))
    (h : s.Renamed ρ t) (args : Args) (i : Nat) :
    (writeOne s args i d next).Renamed ρ
      (writeOne t (args.map (Value.rename ρ)) i d other) := by
  unfold writeOne
  rw [Args.isNone_rename]
  refine .ite (fun _ => .fail h rfl) fun _ => ?_
  have int (f : Int64 → Bytes) :
      (Native.reading s (Args.int s args i) fun n => next s (f n)).Renamed ρ
        (Native.reading t (Args.int t (args.map (Value.rename ρ)) i) fun n => other t (f n)) :=
    .readingEq h (h.intArgument args i) fun n => hn h (f n)
  have float (f : Float → Bytes) :
      (Native.reading s (Args.float s args i) fun x => next s (f x)).Renamed ρ
        (Native.reading t (Args.float t (args.map (Value.rename ρ)) i) fun x => other t (f x)) :=
    .readingEq h (h.floatArgument args i) fun x => hn h (f x)
  split
  case h_1 => -- a byte
    exact .ite (fun _ => int _) fun _ => .fail h rfl
  case h_2 | h_3 | h_4 | h_5 | h_6 | h_7 => -- integers
    exact .ite (fun _ => int _) fun _ => .fail h rfl
  case h_8 | h_9 | h_10 | h_11 | h_12 | h_13 | h_14 | h_15 => -- floats
    exact .ite (fun _ => float _) fun _ => .fail h rfl
  case h_16 => exact .ite (fun _ => hn h _) fun _ => .fail h rfl
  case h_17 => -- a constant of the language
    refine .ite (fun _ => .fail h rfl) fun _ => ?_
    rw [Args.value_rename, constant?_rename]
    split
    · exact hn h _
    · exact .fail h rfl
  case h_18 => -- a text
    refine .ite (fun _ => ?_) fun _ => .fail h rfl
    rw [Args.value_rename]
    refine .withText h _ fun h text => ?_
    refine .ite (fun _ => hn h text) fun _ => ?_
    exact .ite (fun _ => .fail h rfl) fun _ => hn h _
  case h_19 => exact .fail h rfl

theorem write_renamed (args : Args) (fuel : Nat) (h : s.Renamed ρ t) (i : Nat)
    (format written : Bytes) :
    (write args fuel s i format written).Renamed ρ
      (write (args.map (Value.rename ρ)) fuel t i format written) := by
  induction fuel generalizing s t i format written with
  | zero => exact .done h rfl
  | succ fuel ih =>
    unfold write
    split
    · exact .done h rfl
    · exact ih h _ _ _
    · split
      · exact .fail h rfl
      · refine writeOne_renamed _ (fun h bs => ?_) h args i
        exact ih h _ _ _
    · exact ih h _ _ _

end ScriptHost.Lua.Format

namespace ScriptHost.Lua.Strings

variable {ρ : Renaming} {s t : Store}

theorem format_renamed (h : s.Renamed ρ t) (args : Args) :
    (format s args).Renamed ρ (format t (args.map (Value.rename ρ))) :=
  .readingEq h (h.textArgument args 1) fun form => Format.write_renamed args _ h 2 form []

/-- **String functions.** They do the same on stores that differ by a renaming. -/
theorem run_renamed (f : StringFunction) (h : s.Renamed ρ t) (args : Args) :
    (run f s args).Renamed ρ (run f t (args.map (Value.rename ρ))) := by
  cases f with
  | byte => exact .ofPlain h (byte_renamed h args)
  | char => exact .ofPlain h (char_renamed h args)
  | dump | pack | packsize | unpack => exact .fail h rfl
  | find => exact .ofPlain h (find_renamed true h args)
  | format => exact format_renamed h args
  | gmatch => exact .ofPlain h (gmatch_renamed h args)
  | gsub => exact gsub_renamed h args
  | match_ => exact .ofPlain h (find_renamed false h args)
  | len | lower | reverse | upper => exact .ofPlain h (onText_renamed (fun _ => rfl) h args)
  | rep => exact .ofPlain h (rep_renamed h args)
  | sub => exact .ofPlain h (sub_renamed h args)

end ScriptHost.Lua.Strings

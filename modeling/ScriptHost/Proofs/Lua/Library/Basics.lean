import ScriptHost.Proofs.Lua.Native

/-!
# The basic functions on renamed stores
-/

namespace ScriptHost.Lua.Basics

variable {ρ : Renaming} {s t : Store}

/-! ## Loading -/

/-- A text is loaded alike. -/
theorem loaded_cases (h : s.Renamed ρ t) (text name : Bytes) (environment : Value) :
    (∃ e, loaded s text name environment = .error e ∧
        loaded t text name (environment.rename ρ) = .error e) ∨
      ∃ s' t' f, loaded s text name environment = .ok (s', f) ∧
        loaded t text name (environment.rename ρ) = .ok (t', f.rename ρ) ∧ s'.Renamed ρ t' := by
  unfold loaded
  dsimp only
  cases Prototype.ofText (shownChunk name) text with
  | error e => exact .inl ⟨_, rfl, rfl⟩
  | ok prototype =>
    have hc := h.newCell environment
    have hf := hc.newClosure ⟨prototype, #[(s.newCell environment).2]⟩
    have ha := hc.newClosure_address ⟨prototype, #[(s.newCell environment).2]⟩
    have hr : Closure.rename ρ ⟨prototype, #[(s.newCell environment).2]⟩ =
        ⟨prototype, #[(t.newCell (environment.rename ρ)).2]⟩ := by
      rw [h.newCell_address, Closure.rename]
      simp
    rw [hr] at hf ha
    exact .inr ⟨_, _,
      ((s.newCell environment).1.newClosure ⟨prototype, #[(s.newCell environment).2]⟩).2, rfl,
      congrArg Except.ok (Prod.ext rfl ha), hf⟩

@[simp]
theorem loadMode_rename (args : Args) : loadMode (args.map (Value.rename ρ)) = loadMode args := by
  rw [loadMode, loadMode, Args.value_rename]
  cases Args.value args 3 <;> rfl

theorem finishLoad_renamed (h : s.Renamed ρ t) (args : Args) (text name : Bytes) :
    (finishLoad s args text name).Renamed ρ
      (finishLoad t (args.map (Value.rename ρ)) text name) := by
  have henv : (Args.get? (args.map (Value.rename ρ)) 4).getD (.table Store.globals) =
      ((Args.get? args 4).getD (.table Store.globals)).rename ρ := by
    rw [Args.get?_rename]
    cases Args.get? args 4 <;> simp
  unfold finishLoad
  dsimp only
  rw [loadMode_rename, henv]
  refine .ite (fun _ => .done h rfl) fun _ => ?_
  obtain ⟨e, hs, ht⟩ | ⟨s', t', f, hs, ht, h'⟩ :=
    loaded_cases h text name ((Args.get? args 4).getD (.table Store.globals))
  · rw [hs, ht]
    exact .done h rfl
  · rw [hs, ht]
    exact .done h' rfl

theorem readPieces_renamed (reader : Value) {next other : Store → Except Value Bytes → Native}
    (hok : ∀ {s t : Store}, s.Renamed ρ t → ∀ text,
      (next s (.ok text)).Renamed ρ (other t (.ok text)))
    (herror : ∀ {s t : Store}, s.Renamed ρ t → ∀ e,
      (next s (.error e)).Renamed ρ (other t (.error (e.rename ρ))))
    (fuel : Nat) (h : s.Renamed ρ t) (text : Bytes) :
    (readPieces reader next fuel s text).Renamed ρ
      (readPieces (reader.rename ρ) other fuel t text) := by
  induction fuel generalizing s t text with
  | zero => exact hok h text
  | succ fuel ih =>
    refine .attempt h rfl rfl rfl fun h r => ?_
    cases r with
    | error e => exact herror h e
    | ok vs =>
      simp only [renameResult, Value.headD_rename]
      cases vs.headD .nil with
      | nil => exact hok h text
      | string piece =>
        cases piece with
        | nil => exact hok h text
        | cons b rest => exact ih h _
      | number n => exact ih h _
      | _ => exact herror h (.string "reader function must return a string")

theorem load_renamed (h : s.Renamed ρ t) (args : Args) :
    (load s args).Renamed ρ (load t (args.map (Value.rename ρ))) := by
  rw [load, load, Args.value_rename, Value.text?_rename]
  split
  · exact .readingEq h (h.textOrArgument args 2 _) fun name => finishLoad_renamed h args _ name
  · refine .readingEq h (h.textOrArgument args 2 "=(load)") fun name => ?_
    refine .reading h (h.functionArgument args 1) ?_
    rintro reader _ rfl
    refine readPieces_renamed reader (fun h text => ?_) (fun h e => ?_) maxPieces h []
    · exact finishLoad_renamed h args text name
    · exact .done h rfl

/-! ## Faults -/

theorem rename_raised (v : Value) (level : Int64) :
    raised (v.rename ρ) level = (raised v level).rename ρ := by
  cases v with
  | string text =>
    simp only [Value.rename_string, raised]
    split <;> rfl
  | _ => rfl

theorem error_renamed (h : s.Renamed ρ t) (args : Args) :
    Agree ρ (Results ρ) (error s args) (error t (args.map (Value.rename ρ))) := by
  refine (h.intOrArgument args 2 1).bindEq fun level => ?_
  rw [Args.value_rename, rename_raised]
  exact .error rfl

theorem assert_renamed (h : s.Renamed ρ t) (args : Args) :
    Agree ρ (Results ρ) (assert s args) (assert t (args.map (Value.rename ρ))) := by
  refine (Store.Renamed.anyArgument args 1).bind ?_
  rintro v _ rfl
  rw [Value.truthy_rename]
  refine .ite (fun _ => .done h rfl) fun _ => ?_
  have hv : (Args.get? (args.map (Value.rename ρ)) 2).getD (.string "assertion failed!") =
      ((Args.get? args 2).getD (.string "assertion failed!")).rename ρ := by
    rw [Args.get?_rename]
    cases Args.get? args 2 <;> rfl
  rw [hv, rename_raised]
  exact .error rfl

theorem collectgarbage_renamed (h : s.Renamed ρ t) (args : Args) :
    Agree ρ (Results ρ) (collectgarbage s args)
      (collectgarbage t (args.map (Value.rename ρ))) := by
  refine (h.textOrArgument args 1 "collect").bindEq fun option => ?_
  refine .ite (fun _ => .done h rfl) fun _ => ?_
  refine .ite (fun _ => .done h rfl) fun _ => ?_
  refine .ite (fun _ => .done h rfl) fun _ => ?_
  refine .ite (fun _ => .done h rfl) fun _ => ?_
  refine .ite (fun _ => .done h rfl) fun _ => ?_
  exact .ite (fun _ => .done h rfl) fun _ => .error rfl

/-! ## Tables -/

theorem getmetatable_renamed (h : s.Renamed ρ t) (args : Args) :
    Agree ρ (Results ρ) (getmetatable s args) (getmetatable t (args.map (Value.rename ρ))) := by
  refine (Store.Renamed.anyArgument args 1).bind ?_
  rintro v _ rfl
  rw [h.metatable?]
  cases s.metatable? v with
  | none => cases v <;> exact .done h rfl
  | some m =>
    simp only [Option.map_some, h.getString]
    cases (s.table m).getString "__metatable" <;> exact .done h rfl

theorem givenMetatable_renamed (h : s.Renamed ρ t) (args : Args) :
    Agree ρ (fun m n => n = m.map ρ.tables) (givenMetatable s args)
      (givenMetatable t (args.map (Value.rename ρ))) := by
  rw [givenMetatable, givenMetatable, Args.get?_rename]
  cases Args.get? args 2 with
  | none => exact h.wrongType args 2 "nil or table"
  | some v =>
    cases v with
    | nil | table _ => exact .ok rfl
    | _ => exact h.wrongType args 2 "nil or table"

theorem setmetatable_renamed (h : s.Renamed ρ t) (args : Args) :
    Agree ρ (Results ρ) (setmetatable s args) (setmetatable t (args.map (Value.rename ρ))) := by
  refine (h.tableArgument args 1).bind ?_
  rintro a _ rfl
  refine (givenMetatable_renamed h args).bind ?_
  rintro m _ rfl
  have he := h.event (.table a) "__metatable"
  rw [Value.rename_table] at he
  rw [he]
  cases s.event (.table a) "__metatable" with
  | nil => exact .done (h.modifyTable a fun _ => rfl) rfl
  | _ => exact .error rfl

theorem next_renamed (h : s.Renamed ρ t) (args : Args) :
    Agree ρ (Results ρ) (next s args) (next t (args.map (Value.rename ρ))) := by
  refine (h.tableArgument args 1).bind ?_
  rintro a _ rfl
  rw [h.table, Args.value_rename, Table.next?_rename]
  cases (s.table a).next? (Args.value args 2) with
  | none => exact .error rfl
  | some pair =>
    cases pair with
    | none => exact .done h rfl
    | some pair => exact .done h rfl

theorem pairs_renamed (h : s.Renamed ρ t) (args : Args) :
    (pairs s args).Renamed ρ (pairs t (args.map (Value.rename ρ))) := by
  refine .reading h (Store.Renamed.anyArgument args 1) ?_
  rintro v _ rfl
  rw [h.event]
  cases s.event v "__pairs" with
  | nil => exact .done h rfl
  | _ =>
    refine .call h rfl rfl fun h vs => .done h ?_
    simp

theorem ipairs_renamed (h : s.Renamed ρ t) (args : Args) :
    Agree ρ (Results ρ) (ipairs s args) (ipairs t (args.map (Value.rename ρ))) := by
  refine (Store.Renamed.anyArgument args 1).bind ?_
  rintro v _ rfl
  exact .done h rfl

theorem nextIndex_renamed (h : s.Renamed ρ t) (args : Args) :
    (nextIndex s args).Renamed ρ (nextIndex t (args.map (Value.rename ρ))) := by
  refine .readingEq h (h.intArgument args 2) fun n => ?_
  rw [Args.value_rename]
  refine .withItem h rfl rfl fun h v => .done h ?_
  rw [Value.isNil_rename]
  split <;> rfl

theorem rawequal_renamed (h : s.Renamed ρ t) (args : Args) :
    Agree ρ (Results ρ) (rawequal s args) (rawequal t (args.map (Value.rename ρ))) := by
  refine (Store.Renamed.anyArgument args 1).bind ?_
  rintro a _ rfl
  refine (Store.Renamed.anyArgument args 2).bind ?_
  rintro b _ rfl
  rw [Value.rawEquals_rename]
  exact .done h rfl

theorem rawget_renamed (h : s.Renamed ρ t) (args : Args) :
    Agree ρ (Results ρ) (rawget s args) (rawget t (args.map (Value.rename ρ))) := by
  refine (h.tableArgument args 1).bind ?_
  rintro a _ rfl
  refine (Store.Renamed.anyArgument args 2).bind ?_
  rintro k _ rfl
  rw [h.get]
  exact .done h rfl

theorem rawlen_renamed (h : s.Renamed ρ t) (args : Args) :
    Agree ρ (Results ρ) (rawlen s args) (rawlen t (args.map (Value.rename ρ))) := by
  rw [rawlen, rawlen, Args.value_rename]
  cases Args.value args 1 with
  | table a =>
    simp only [Value.rename_table, h.table, Table.length_rename]
    exact .done h rfl
  | string bs => exact .done h rfl
  | _ => exact h.wrongType args 1 "table or string"

theorem rawset_renamed (h : s.Renamed ρ t) (args : Args) :
    Agree ρ (Results ρ) (rawset s args) (rawset t (args.map (Value.rename ρ))) := by
  refine (h.tableArgument args 1).bind ?_
  rintro a _ rfl
  refine (Store.Renamed.anyArgument args 2).bind ?_
  rintro k _ rfl
  refine (Store.Renamed.anyArgument args 3).bind ?_
  rintro v _ rfl
  rw [Store.badKey?_rename]
  cases Store.badKey? k with
  | some reason => exact .error rfl
  | none => exact .done (h.modifyTable a fun x => x.set_rename k v) rfl

/-! ## Values -/

theorem selectFrom_renamed (h : s.Renamed ρ t) (args : Args) :
    Agree ρ (Results ρ) (selectFrom s args) (selectFrom t (args.map (Value.rename ρ))) := by
  refine (h.intArgument args 1).bindEq fun n => ?_
  rw [List.length_map]
  exact .ite (fun _ => .error rfl) fun _ => .done h List.map_drop.symm

theorem select_renamed (h : s.Renamed ρ t) (args : Args) :
    Agree ρ (Results ρ) (select s args) (select t (args.map (Value.rename ρ))) := by
  have hfrom := selectFrom_renamed h args
  unfold select
  rw [Args.value_rename, List.length_map]
  cases Args.value args 1 with
  | string bs =>
    rw [Value.rename_string]
    split
    · exact .done h rfl
    · exact hfrom
  | _ => exact hfrom

theorem asNumber_renamed (h : s.Renamed ρ t) (args : Args) :
    Agree ρ (Results ρ) (asNumber s args) (asNumber t (args.map (Value.rename ρ))) := by
  have hany : Agree ρ (Results ρ) (Args.any args 1 >>= fun _ => .ok (s, [.nil]))
      (Args.any (args.map (Value.rename ρ)) 1 >>= fun _ => .ok (t, [.nil])) :=
    (Store.Renamed.anyArgument args 1).bind fun _ _ _ => .done h rfl
  unfold asNumber
  rw [Args.value_rename]
  cases Args.value args 1 with
  | number n => exact .done h rfl
  | string bs =>
    refine .done h ?_
    cases Number.ofText? bs <;> rfl
  | _ => exact hany

theorem readInBase_renamed (h : s.Renamed ρ t) (args : Args) :
    Agree ρ (Results ρ) (readInBase s args) (readInBase t (args.map (Value.rename ρ))) := by
  refine (h.intArgument args 2).bindEq fun base => ?_
  rw [Args.value_rename]
  cases Args.value args 1 with
  | string bs =>
    refine .ite (fun _ => .error rfl) fun _ => .done h ?_
    cases numberInBase? base.toInt.toNat bs <;> rfl
  | _ => exact h.wrongType args 1 "string"

theorem tonumber_renamed (h : s.Renamed ρ t) (args : Args) :
    Agree ρ (Results ρ) (tonumber s args) (tonumber t (args.map (Value.rename ρ))) := by
  rw [tonumber, tonumber, Args.isNoneOrNil_rename]
  exact .ite (fun _ => asNumber_renamed h args) fun _ => readInBase_renamed h args

theorem tostring_renamed (h : s.Renamed ρ t) (args : Args) :
    (tostring s args).Renamed ρ (tostring t (args.map (Value.rename ρ))) := by
  refine .reading h (Store.Renamed.anyArgument args 1) ?_
  rintro v _ rfl
  exact .withText h v fun h text => .done h rfl

theorem type_renamed (h : s.Renamed ρ t) (args : Args) :
    Agree ρ (Results ρ) (type s args) (type t (args.map (Value.rename ρ))) := by
  refine (Store.Renamed.anyArgument args 1).bind ?_
  rintro v _ rfl
  rw [Value.typeName_rename]
  exact .done h rfl

theorem loadfile_renamed (h : s.Renamed ρ t) (args : Args) :
    Agree ρ (Results ρ) (loadfile s args) (loadfile t (args.map (Value.rename ρ))) :=
  (h.textOrArgument args 1 "stdin").bindEq fun _ => .done h rfl

theorem dofile_renamed (h : s.Renamed ρ t) (args : Args) :
    Agree ρ (Results ρ) (dofile s args) (dofile t (args.map (Value.rename ρ))) :=
  (h.textOrArgument args 1 "stdin").bindEq fun _ => .error rfl

/-! ## Calls -/

theorem pcall_renamed (h : s.Renamed ρ t) (args : Args) :
    (pcall s args).Renamed ρ (pcall t (args.map (Value.rename ρ))) := by
  cases args with
  | nil => exact .fail h rfl
  | cons f args =>
    refine .attempt h rfl rfl rfl fun h r => ?_
    cases r <;> exact .done h rfl

theorem xpcall_renamed (h : s.Renamed ρ t) (args : Args) :
    (xpcall s args).Renamed ρ (xpcall t (args.map (Value.rename ρ))) := by
  match args with
  | [] => exact .fail h rfl
  | [_] => exact .fail h rfl
  | f :: handler :: args =>
    refine .attempt h rfl rfl rfl fun h r => ?_
    cases r <;> exact .done h rfl

/-! ## Modules -/

theorem packageField_rename (h : s.Renamed ρ t) (name : String) :
    packageField t name = (packageField s name).rename ρ := by
  have hg : (t.table Store.globals).getString "package" =
      ((s.table Store.globals).getString "package").rename ρ := by
    rw [h.table_fixed (by decide), Table.getString_rename]
  rw [packageField, packageField, hg]
  cases (s.table Store.globals).getString "package" with
  | table a => exact h.getString a _
  | _ => rfl

theorem moduleIn_rename (h : s.Renamed ρ t) (field : String) (name : Bytes) :
    moduleIn t field name = (moduleIn s field name).rename ρ := by
  rw [moduleIn, moduleIn, packageField_rename h]
  cases packageField s field with
  | table a => exact h.getString a _
  | _ => rfl

theorem moduleValue_rename (v : Value) : moduleValue (v.rename ρ) = (moduleValue v).rename ρ := by
  cases v <;> rfl

theorem keepModule_renamed (h : s.Renamed ρ t) (name : Bytes) (v : Value) :
    (keepModule s name v).Renamed ρ (keepModule t name (v.rename ρ)) := by
  rw [keepModule, keepModule, packageField_rename h]
  cases packageField s "loaded" with
  | table a => exact h.modifyTable a fun x => x.set_rename (.string name) v
  | _ => exact h

theorem require_renamed (h : s.Renamed ρ t) (args : Args) :
    (require s args).Renamed ρ (require t (args.map (Value.rename ρ))) := by
  refine .readingEq h (h.textArgument args 1) fun name => ?_
  rw [moduleIn_rename h, moduleIn_rename h]
  cases moduleIn s "loaded" name with
  | nil =>
    cases moduleIn s "preload" name with
    | nil => exact .fail h rfl
    | _ =>
      refine .call h rfl rfl fun h vs => ?_
      rw [Value.headD_rename, moduleValue_rename]
      exact .done (keepModule_renamed h name _) rfl
  | _ => exact .done h rfl

/-! ## Printers -/

theorem failIn_renamed (h : s.Renamed ρ t) (cause : Cause) :
    (failIn s cause).Renamed ρ (failIn t cause) :=
  .fail (h.newFailure _) (congrArg Fault.value (h.newFailure_address (.inCallback cause [])))

theorem failText_renamed (h : s.Renamed ρ t) (e : Value) :
    (failText s e).Renamed ρ (failText t (e.rename ρ)) := by
  have hw := Native.Renamed.withText h e (fun {s' t'} h' text =>
    failIn_renamed h' (.raised (text ++ "\n" ++ s.traceback)))
  cases e with
  | failure _ => exact .fail h rfl
  | _ =>
    unfold failText
    rw [h.traceback]
    exact hw

theorem withTexts_renamed (tostring : Value) {next other : Store → List Bytes → Native}
    (hn : ∀ {s t : Store}, s.Renamed ρ t → ∀ texts,
      (next s texts).Renamed ρ (other t texts)) (vs : List Value) (h : s.Renamed ρ t)
    (texts : List Bytes) :
    (withTexts tostring next vs s texts).Renamed ρ
      (withTexts (tostring.rename ρ) other (vs.map (Value.rename ρ)) t texts) := by
  induction vs generalizing s t texts with
  | nil => exact hn h _
  | cons v rest ih =>
    refine .attempt h rfl rfl rfl fun h r => ?_
    cases r with
    | error e => exact failText_renamed h e
    | ok vs =>
      simp only [renameResult, Value.headD_rename, Value.text?_rename, Value.typeName_rename]
      split
      · exact ih h _
      · exact failIn_renamed h _

/-- A printer writes the same texts, to the sink that is its own. -/
theorem print_renamed (sink : Nat) (h : s.Renamed ρ t) (args : Args) :
    (print sink s args).Renamed ρ (print (ρ.sinks sink) t (args.map (Value.rename ρ))) := by
  have go {s t : Store} (h : s.Renamed ρ t) (tostring : Value) :=
    withTexts_renamed tostring (fun {s t} (h : s.Renamed ρ t) texts =>
      show (writeLine sink s texts).Renamed ρ (writeLine (ρ.sinks sink) t texts) from
        .done (h.write sink _) rfl) args h []
  refine .withItem h (by simp) rfl fun h v => ?_
  cases v with
  | closure _ | builtin _ => exact go h _
  | _ => exact failIn_renamed h _

/-- **Basic functions.** They do the same on stores that differ by a renaming. -/
theorem run_renamed (f : BaseFunction) (h : s.Renamed ρ t) (args : Args) :
    (run f s args).Renamed ρ (run f t (args.map (Value.rename ρ))) := by
  cases f with
  | assert => exact .ofPlain h (assert_renamed h args)
  | collectgarbage => exact .ofPlain h (collectgarbage_renamed h args)
  | dofile => exact .ofPlain h (dofile_renamed h args)
  | error => exact .ofPlain h (error_renamed h args)
  | getmetatable => exact .ofPlain h (getmetatable_renamed h args)
  | ipairs => exact .ofPlain h (ipairs_renamed h args)
  | load => exact load_renamed h args
  | loadfile => exact .ofPlain h (loadfile_renamed h args)
  | next => exact .ofPlain h (next_renamed h args)
  | pairs => exact pairs_renamed h args
  | pcall => exact pcall_renamed h args
  | print => exact .done h rfl
  | rawequal => exact .ofPlain h (rawequal_renamed h args)
  | rawget => exact .ofPlain h (rawget_renamed h args)
  | rawlen => exact .ofPlain h (rawlen_renamed h args)
  | rawset => exact .ofPlain h (rawset_renamed h args)
  | require => exact require_renamed h args
  | select => exact .ofPlain h (select_renamed h args)
  | setmetatable => exact .ofPlain h (setmetatable_renamed h args)
  | tonumber => exact .ofPlain h (tonumber_renamed h args)
  | tostring => exact tostring_renamed h args
  | type => exact .ofPlain h (type_renamed h args)
  | warn => exact .done h rfl
  | xpcall => exact xpcall_renamed h args

end ScriptHost.Lua.Basics

import ScriptHost.Proofs.Lua.Native

/-!
# The table library on renamed stores

A sort calls back into scripts again and again; what it does next is given to it as a
computation, so that its lemmas ask the same of that computation as they show
(`sortBetween_renamed`).
-/

namespace ScriptHost.Lua.Tables

variable {ρ : Renaming} {s t : Store}

theorem concat_renamed (h : s.Renamed ρ t) (args : Args) :
    Agree ρ (Results ρ) (concat s args) (concat t (args.map (Value.rename ρ))) := by
  refine (h.tableArgument args 1).bind ?_
  rintro a _ rfl
  refine (h.textOrArgument args 2 []).bindEq fun sep => ?_
  refine (h.intOrArgument args 3 1).bindEq fun first => ?_
  rw [h.table, Table.length_rename]
  refine (h.intOrArgument args 4 _).bindEq fun last => ?_
  refine (Agree.mapM (fun k => ?_) _).bindEq fun pieces => .done h rfl
  have hget : (((s.table a).rename ρ).get (.int (first + .ofNat k))).text? =
      ((s.table a).get (.int (first + .ofNat k))).text? := by
    rw [← Value.text?_rename (ρ := ρ) ((s.table a).get _), ← Table.get_rename, Value.rename_int]
  dsimp only
  rw [hget]
  split
  · exact .ok rfl
  · exact .error rfl

theorem shiftUp_rename (first last : Nat) (x : Table) :
    shiftUp first last (x.rename ρ) = (shiftUp first last x).rename ρ := by
  refine List.foldl_hom _ fun x k => ?_
  have hget : (x.rename ρ).get (.ofNat (last - k)) = (x.get (.ofNat (last - k))).rename ρ :=
    x.get_rename (.ofNat (last - k))
  rw [hget]
  exact x.set_rename (.ofNat (last + 1 - k)) _

theorem shiftDown_rename (first last : Nat) (x : Table) :
    shiftDown first last (x.rename ρ) = (shiftDown first last x).rename ρ := by
  have hmove (x : Table) (k : Nat) :
      (x.rename ρ).set (.ofNat (first + k)) ((x.rename ρ).get (.ofNat (first + k + 1))) =
        (x.set (.ofNat (first + k)) (x.get (.ofNat (first + k + 1)))).rename ρ := by
    have hget : (x.rename ρ).get (.ofNat (first + k + 1)) =
        (x.get (.ofNat (first + k + 1))).rename ρ := x.get_rename (.ofNat (first + k + 1))
    rw [hget]
    exact x.set_rename (.ofNat (first + k)) _
  rw [shiftDown, List.foldl_hom (Table.rename ρ) hmove]
  exact Table.set_rename _ (.ofNat last) .nil

theorem insert_renamed (h : s.Renamed ρ t) (args : Args) :
    Agree ρ (Results ρ) (insert s args) (insert t (args.map (Value.rename ρ))) := by
  refine (h.tableArgument args 1).bind ?_
  rintro a _ rfl
  rw [h.table, Table.length_rename, List.length_map]
  split
  · refine .done (h.modifyTable a fun x => ?_) rfl
    rw [Args.value_rename]
    exact x.set_rename (.ofNat _) _
  · refine (h.intArgument args 2).bindEq fun place => ?_
    refine .ite (fun _ => ?_) fun _ => .error rfl
    refine .done (h.modifyTable a fun x => ?_) rfl
    rw [Args.value_rename, shiftUp_rename]
    exact Table.set_rename _ (.ofNat _) _
  · exact .error rfl

theorem remove_renamed (h : s.Renamed ρ t) (args : Args) :
    Agree ρ (Results ρ) (remove s args) (remove t (args.map (Value.rename ρ))) := by
  refine (h.tableArgument args 1).bind ?_
  rintro a _ rfl
  dsimp only
  rw [h.table, Table.length_rename, List.length_map]
  refine (h.intOrArgument args 2 _).bindEq fun place => ?_
  have hget : ((s.table a).rename ρ).get (.int place) =
      ((s.table a).get (.int place)).rename ρ := (s.table a).get_rename (.int place)
  refine .ite (fun _ => .error rfl) fun _ => ?_
  refine .ite (fun _ => ?_) fun _ => ?_
  · exact .done (h.modifyTable a fun x => shiftDown_rename _ _ x) (congrArg (fun v => [v]) hget)
  · refine .done (h.modifyTable a fun x => ?_) (congrArg (fun v => [v]) hget)
    exact x.set_rename (.int place) .nil

theorem packed_rename (values : List Value) :
    packed (values.map (Value.rename ρ)) = (packed values).rename ρ := by
  have hfields : ({ fields := #[(.string "n", .ofNat values.length)] } : Table) =
      Table.rename ρ { fields := #[(.string "n", .ofNat values.length)] } := by
    simp [Table.rename, renamePair]
  have hset (x : Table) (p : Value × Nat) :
      (x.rename ρ).set (.ofNat p.2) (p.1.rename ρ) = (x.set (.ofNat p.2) p.1).rename ρ :=
    x.set_rename (.ofNat p.2) p.1
  rw [packed, packed, List.zipIdx_map, List.foldl_map, List.length_map, hfields]
  exact (List.foldl_hom (Table.rename ρ) hset).trans (by rw [← hfields])

theorem pack_renamed (h : s.Renamed ρ t) (args : Args) :
    Agree ρ (Results ρ) (pack s args) (pack t (args.map (Value.rename ρ))) := by
  rw [pack, pack, packed_rename]
  exact .done (h.newTable (packed args))
    (congrArg (fun v => [v]) (h.newTable_address (packed args)))

theorem itemsFrom_renamed (x : Table) (first last : Int64) :
    Agree ρ (fun vs ws => ws = vs.map (Value.rename ρ)) (itemsFrom x first last)
      (itemsFrom (x.rename ρ) first last) := by
  rw [itemsFrom, itemsFrom]
  refine .ite (fun _ => .error rfl) fun _ => .ok ?_
  rw [List.map_map]
  refine List.map_congr_left fun k _ => ?_
  rw [Function.comp_apply, ← Table.get_rename, Value.rename_int]

theorem unpack_renamed (h : s.Renamed ρ t) (args : Args) :
    Agree ρ (Results ρ) (unpack s args) (unpack t (args.map (Value.rename ρ))) := by
  have hn := h.typeName (Args.value args 1)
  unfold unpack
  rw [Args.value_rename]
  cases ha : Args.value args 1 with
  | table a =>
    simp only [Value.rename_table, h.table, Table.length_rename]
    refine (h.intOrArgument args 2 1).bindEq fun first => ?_
    refine (h.intOrArgument args 3 _).bindEq fun last => ?_
    refine (itemsFrom_renamed (s.table a) first last).bind ?_
    rintro items _ rfl
    exact .done h rfl
  | _ =>
    rw [ha] at hn
    refine .error ?_
    rw [hn]
    rfl

theorem destination_renamed (h : s.Renamed ρ t) (args : Args) (a : Nat) :
    Agree ρ (fun b c => c = ρ.tables b) (destination s args a)
      (destination t (args.map (Value.rename ρ)) (ρ.tables a)) := by
  rw [destination, destination, Args.isNoneOrNil_rename]
  exact .ite (fun _ => .ok rfl) fun _ => h.tableArgument args 5

theorem moveItem_renamed (h : s.Renamed ρ t) (a b : Nat) (first target : Int64) (k : Nat) :
    (moveItem a b first target s k).Renamed ρ
      (moveItem (ρ.tables a) (ρ.tables b) first target t k) := by
  have hget := h.get a (.int (first + .ofNat k))
  rw [Value.rename_int] at hget
  rw [moveItem, moveItem, hget]
  generalize target + Int64.ofNat k = place
  exact h.modifyTable b fun x => x.set_rename (.int place) _

theorem moveItems_renamed (a b : Nat) (first target : Int64) (order : List Nat) {s t : Store}
    (h : s.Renamed ρ t) :
    (order.foldl (moveItem a b first target) s).Renamed ρ
      (order.foldl (moveItem (ρ.tables a) (ρ.tables b) first target) t) := by
  induction order generalizing s t with
  | nil => exact h
  | cons k rest ih => exact ih (moveItem_renamed h a b first target k)

theorem move_renamed (h : s.Renamed ρ t) (args : Args) :
    Agree ρ (Results ρ) (move s args) (move t (args.map (Value.rename ρ))) := by
  refine (h.tableArgument args 1).bind ?_
  rintro a _ rfl
  refine (h.intArgument args 2).bindEq fun first => ?_
  refine (h.intArgument args 3).bindEq fun last => ?_
  refine (h.intArgument args 4).bindEq fun target => ?_
  refine (destination_renamed h args a).bind ?_
  rintro b _ rfl
  have hne : (ρ.tables a ≠ ρ.tables b) = (a ≠ b) := by rw [Ne, Renaming.tables_inj]
  simp only [hne]
  exact .done (moveItems_renamed a b first target _ h) rfl

/-! ## Sorting -/

def Order.rename (ρ : Renaming) (o : Order) : Order := ⟨o.byFunction.map (Value.rename ρ)⟩

/-- Both computations go on alike on stores that differ by the renaming. -/
abbrev Continues {α : Type} (ρ : Renaming) (next other : Store → α → Native) : Prop :=
  ∀ {s t : Store}, s.Renamed ρ t → ∀ a, (next s a).Renamed ρ (other t a)

theorem handledBefore_renamed (h : s.Renamed ρ t) (a b : Value)
    {next other : Store → Bool → Native} (hn : Continues ρ next other) :
    (handledBefore s a b next).Renamed ρ
      (handledBefore t (a.rename ρ) (b.rename ρ) other) := by
  rw [handledBefore, handledBefore, h.handler, h.typeName, h.typeName]
  cases s.handler "__lt" a b with
  | nil => exact .fail h rfl
  | _ =>
    refine .call h rfl rfl fun h vs => ?_
    rw [Value.headD_rename, Value.truthy_rename]
    exact hn h _

theorem before_renamed (h : s.Renamed ρ t) (o : Order) (a b : Value)
    {next other : Store → Bool → Native} (hn : Continues ρ next other) :
    (o.before s a b next).Renamed ρ
      ((o.rename ρ).before t (a.rename ρ) (b.rename ρ) other) := by
  obtain ⟨_ | f⟩ := o
  · have hb := handledBefore_renamed h a b hn
    cases a with
    | number _ | string _ => cases b <;> first | exact hn h _ | exact hb
    | _ => exact hb
  · refine .call h rfl rfl fun h vs => ?_
    rw [Value.headD_rename, Value.truthy_rename]
    exact hn h _

theorem item_rename (h : s.Renamed ρ t) (a i : Nat) :
    item t (ρ.tables a) i = (item s a i).rename ρ :=
  h.get a (.ofNat i)

theorem setItem_renamed (h : s.Renamed ρ t) (a i : Nat) (v : Value) :
    (setItem s a i v).Renamed ρ (setItem t (ρ.tables a) i (v.rename ρ)) :=
  h.modifyTable a fun x => x.set_rename (.ofNat i) v

theorem swapped_renamed (h : s.Renamed ρ t) (a i j : Nat) :
    (swapped s a i j).Renamed ρ (swapped t (ρ.tables a) i j) := by
  rw [swapped, swapped, item_rename h, item_rename h]
  exact setItem_renamed (setItem_renamed h a i _) a j _

theorem arrange_renamed (h : s.Renamed ρ t) (o : Order) (a i j : Nat)
    {next other : Store → Bool → Native} (hn : Continues ρ next other) :
    (arrange o a i j s next).Renamed ρ (arrange (o.rename ρ) (ρ.tables a) i j t other) := by
  rw [arrange, arrange, item_rename h, item_rename h]
  refine before_renamed h o _ _ fun h is => ?_
  exact .ite (fun _ => hn (swapped_renamed h a i j) true) fun _ => hn h false

theorem climb_renamed (o : Order) (a : Nat) (pivot : Value) (top fuel i : Nat)
    (h : s.Renamed ρ t) {next other : Store → Nat → Native} (hn : Continues ρ next other) :
    (climb o a pivot top fuel i s next).Renamed ρ
      (climb (o.rename ρ) (ρ.tables a) (pivot.rename ρ) top fuel i t other) := by
  induction fuel generalizing i s t with
  | zero => exact .fail h rfl
  | succ fuel ih =>
    rw [climb, climb, item_rename h]
    refine before_renamed h o _ _ fun h is => ?_
    refine .ite (fun _ => ?_) fun _ => hn h (i + 1)
    exact .ite (fun _ => .fail h rfl) fun _ => ih (i + 1) h

theorem descend_renamed (o : Order) (a : Nat) (pivot : Value) (i fuel j : Nat)
    (h : s.Renamed ρ t) {next other : Store → Nat → Native} (hn : Continues ρ next other) :
    (descend o a pivot i fuel j s next).Renamed ρ
      (descend (o.rename ρ) (ρ.tables a) (pivot.rename ρ) i fuel j t other) := by
  induction fuel generalizing j s t with
  | zero => exact .fail h rfl
  | succ fuel ih =>
    rw [descend, descend, item_rename h]
    refine before_renamed h o _ _ fun h is => ?_
    refine .ite (fun _ => ?_) fun _ => hn h (j - 1)
    exact .ite (fun _ => .fail h rfl) fun _ => ih (j - 1) h

theorem divide_renamed (o : Order) (a : Nat) (pivot : Value) (low high fuel i j : Nat)
    (h : s.Renamed ρ t) {next other : Store → Nat → Native} (hn : Continues ρ next other) :
    (divide o a pivot low high fuel i j s next).Renamed ρ
      (divide (o.rename ρ) (ρ.tables a) (pivot.rename ρ) low high fuel i j t other) := by
  induction fuel generalizing i j s t with
  | zero => exact .fail h rfl
  | succ fuel ih =>
    refine climb_renamed o a pivot high (high + 1) i h fun h i => ?_
    refine descend_renamed o a pivot i (high + 1) j h fun h j => ?_
    refine .ite (fun _ => hn (swapped_renamed h a (high - 1) i) i) fun _ => ?_
    exact ih i j (swapped_renamed h a i j)

theorem arrangeMiddle_renamed (h : s.Renamed ρ t) (o : Order) (a low middle high : Nat)
    {next other : Store → Native}
    (hn : ∀ {s t : Store}, s.Renamed ρ t → (next s).Renamed ρ (other t)) :
    (arrangeMiddle o a low middle high s next).Renamed ρ
      (arrangeMiddle (o.rename ρ) (ρ.tables a) low middle high t other) := by
  refine arrange_renamed h o a low middle fun h was => ?_
  refine .ite (fun _ => hn h) fun _ => ?_
  exact arrange_renamed h o a middle high fun h _ => hn h

theorem divideAround_renamed (h : s.Renamed ρ t) (o : Order) (a low middle high : Nat)
    {next other : Store → Nat → Native} (hn : Continues ρ next other) :
    (divideAround o a low middle high s next).Renamed ρ
      (divideAround (o.rename ρ) (ρ.tables a) low middle high t other) := by
  rw [divideAround, divideAround, item_rename h]
  exact divide_renamed o a _ low high _ low _ (swapped_renamed h a middle _) hn

/-- Items are sorted alike, if what follows goes on alike. -/
theorem sortBetween_renamed (o : Order) (a fuel low high : Nat) (h : s.Renamed ρ t)
    {next other : Store → Native}
    (hn : ∀ {s t : Store}, s.Renamed ρ t → (next s).Renamed ρ (other t)) :
    (sortBetween o a fuel low high s next).Renamed ρ
      (sortBetween (o.rename ρ) (ρ.tables a) fuel low high t other) := by
  induction fuel generalizing low high s t next other with
  | zero => exact hn h
  | succ fuel ih =>
    rw [sortBetween, sortBetween]
    refine .ite (fun _ => hn h) fun _ => ?_
    refine arrange_renamed h o a low high fun h _ => ?_
    refine .ite (fun _ => hn h) fun _ => ?_
    refine arrangeMiddle_renamed h o a low _ high fun h => ?_
    refine .ite (fun _ => hn h) fun _ => ?_
    refine divideAround_renamed h o a low _ high fun h p => ?_
    refine .ite (fun _ => ?_) fun _ => ?_
    · exact ih low (p - 1) h fun h => ih (p + 1) high h hn
    · exact ih (p + 1) high h fun h => ih low (p - 1) h hn

theorem orderOf_renamed (h : s.Renamed ρ t) (args : Args) (a : Nat) :
    Agree ρ (fun o o' => o' = o.rename ρ) (orderOf s args a)
      (orderOf t (args.map (Value.rename ρ)) (ρ.tables a)) := by
  rw [orderOf, orderOf, h.table, Table.length_rename, Args.isNoneOrNil_rename]
  refine .ite (fun _ => ?_) fun _ => .ok rfl
  have hf := h.functionArgument args 2
  generalize Args.function s args 2 = x at hf ⊢
  generalize Args.function t (args.map (Value.rename ρ)) 2 = y at hf ⊢
  cases hf with
  | ok hv => exact .ok (hv ▸ rfl)
  | error he => exact .error he

theorem sort_renamed (h : s.Renamed ρ t) (args : Args) :
    (sort s args).Renamed ρ (sort t (args.map (Value.rename ρ))) := by
  refine .reading h (h.tableArgument args 1) ?_
  rintro a _ rfl
  refine .reading h (orderOf_renamed h args a) ?_
  rintro o _ rfl
  rw [h.table, Table.length_rename]
  exact sortBetween_renamed o a _ 1 _ h fun h => .done h rfl

/-- **Functions of tables.** They do the same on stores that differ by a renaming. -/
theorem run_renamed (f : TableFunction) (h : s.Renamed ρ t) (args : Args) :
    (run f s args).Renamed ρ (run f t (args.map (Value.rename ρ))) := by
  cases f with
  | concat => exact .ofPlain h (concat_renamed h args)
  | insert => exact .ofPlain h (insert_renamed h args)
  | move => exact .ofPlain h (move_renamed h args)
  | pack => exact .ofPlain h (pack_renamed h args)
  | remove => exact .ofPlain h (remove_renamed h args)
  | sort => exact sort_renamed h args
  | unpack => exact .ofPlain h (unpack_renamed h args)

end ScriptHost.Lua.Tables

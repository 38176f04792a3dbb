import ScriptHost.Proofs.Lua.Outgoing
import ScriptHost.Proofs.Lua.Publishing

/-!
# A script that stores the handles

An assignment of the handles to a field of the results becomes code of ten steps
(`ofText_of_storesHost`). A machine that runs these looks both names up in the table of globals, and
in the end the handles stand in the table for the results (`Machine.run_storing`). That table is
apart from the tables of the handles (`Interpreter.Apart`), so these are still what they were when
they are published. So the script publishes the handles under the key (`Pool.run_of_storesHost`).
-/

namespace ScriptHost.Lua

/-! ## The text and its code -/

/-- The text is an assignment of the handles to a field of the results: `__result__.key = __host__`
or `__result__["key"] = __host__`, with or without a semicolon. -/
def StoresHost (text key : String) : Prop :=
  ∃ target ∈ ([[.byte 46, .name key], [.byte 91, .string key, .byte 93]] : List (List Lexeme)),
    ∃ ending ∈ ([[.finish], [.byte 59, .finish]] : List (List Lexeme)),
      (Token.scan text).map Token.lexeme =
        .name "__result__" :: target ++ [.byte 61, .name "__host__"] ++ ending

/-- Tokens have their lines and their texts. -/
theorem exists_tokens {tokens : List Token} {lexemes : List Lexeme}
    (h : tokens.map Token.lexeme = lexemes) :
    ∃ (line : Nat → Nat) (written : Nat → Bytes),
      tokens = lexemes.zipIdx.map fun x => ⟨x.1, line x.2, written x.2⟩ := by
  refine ⟨fun i => (tokens[i]?.map Token.line).getD 0,
    fun i => (tokens[i]?.map Token.written).getD [], ?_⟩
  rw [← h]
  refine List.ext_getElem (by simp) fun i hi _ => ?_
  simp [List.getElem?_eq_getElem hi]

/-- The steps of the assignment. -/
def storing (key : Bytes) : List Instr :=
  [.loadUpvalue 0, .push (.string "__result__"), .index (some ⟨"upvalue", "_ENV"⟩),
    .push (.string key), .loadUpvalue 0, .push (.string "__host__"),
    .index (some ⟨"upvalue", "_ENV"⟩), .setIndex 0 (some ⟨"global", "__result__"⟩), .drop 2,
    .leave 0 false]

theorem ofText_of_storesHost {text key : String} (h : StoresHost text key) (chunk : Bytes) :
    ∃ p, Prototype.ofText chunk text = .ok p ∧ p.parameters = 0 ∧
      p.code.toList.map Step.instr = storing key := by
  obtain ⟨target, htarget, ending, hending, hlexemes⟩ := h
  obtain ⟨line, written, htokens⟩ := exists_tokens hlexemes
  simp only [List.mem_cons, List.not_mem_nil, or_false] at htarget hending
  rw [Prototype.ofText, htokens]
  obtain rfl | rfl := htarget <;> obtain rfl | rfl := hending <;> exact ⟨_, rfl, rfl, rfl⟩

/-! ## What the steps do -/

namespace Store

/-- What stands under a text in a table is found there. -/
theorem lookup_of_getString {s : Store} {a : Nat} {name : Bytes} {v : Value}
    (h : (s.table a).getString name = v) (hv : v.isNil = false) :
    s.lookup (.string name) maxChain (.table a) = .value v := by
  have hget : (s.table a).get (.string name) = v := h
  rw [show maxChain = 1999 + 1 from rfl, lookup, hget]
  cases v with
  | nil => cases hv
  | _ => rfl

/-- An assignment to an empty table goes into it. -/
theorem assign_of_empty {s : Store} {a : Nat} (h : s.table a = {}) (name : Bytes) (v : Value) :
    s.assign (.string name) v maxChain (.table a) = .into a := by
  rw [show maxChain = 1999 + 1 from rfl, assign, h]
  rfl

end Store

namespace Machine

section Straight

variable {s t : Store} {address : Nat} {p : Prototype} {pc : Nat} {stack stack' : List Value}

/-- The call of a function at a place of its code. -/
def callAt (address : Nat) (p : Prototype) (pc : Nat) (stack : List Value) : Activation :=
  { closure := address, prototype := p, pc, stack }

/-- The machine on which nothing else is called. -/
def alone (s : Store) (a : Activation) : Machine := ⟨s, [⟨.script a, 1, 1⟩], [], .advance⟩

/-- The run begins with the first step of the function. -/
theorem run_call (hparameters : p.parameters = 0) {upvalues : Array Nat}
    (hclosure : s.closures.getD address default = ⟨p, upvalues⟩) (n : Nat) :
    run (n + 1) ⟨s, [], [], .call (.closure address) []⟩ =
      run n (alone s (callAt address p 0 [])) := by
  have hnone : parametersOf p [] = [] := by
    rw [parametersOf, hparameters]
    rfl
  have hentered : entered address p #[] [] false = callAt address p 0 [] := by
    rw [entered, List.drop_nil, ite_self]
    rfl
  show run n (enter ⟨s, [], [], .advance⟩ address [] false) = _
  rw [enter, hclosure, hnone]
  show run n (alone s (entered address p #[] [] false)) = _
  rw [hentered]

theorem advance_callAt {i : Instr} (hcode : (p.code.toList.map Step.instr)[pc]? = some i) :
    advance s 1 1 (callAt address p pc stack) [] [] =
      afterStep (fun a => [⟨.script a, 1, 1⟩]) [] []
        (effect s (callAt address p (pc + 1) stack) i) := by
  rw [List.getElem?_map, Array.getElem?_toList] at hcode
  obtain ⟨step, hstep, rfl⟩ := Option.map_eq_some_iff.1 hcode
  have hhere : (callAt address p pc stack).prototype.code[(callAt address p pc stack).pc]? =
      some step := hstep
  rw [advance, hhere]
  rfl

/-- The run goes on with the next step. -/
theorem run_next {i : Instr} (hcode : (p.code.toList.map Step.instr)[pc]? = some i)
    (heffect : effect s (callAt address p (pc + 1) stack) i =
      .next t (callAt address p (pc + 1) stack')) (n : Nat) :
    run (n + 1) (alone s (callAt address p pc stack)) =
      run n (alone t (callAt address p (pc + 1) stack')) := by
  show run n (advance s 1 1 (callAt address p pc stack) [] []) = _
  rw [advance_callAt hcode, heffect]
  rfl

/-- The run ends with the last step. -/
theorem run_leave (hcode : (p.code.toList.map Step.instr)[pc]? = some (.leave 0 false)) (n : Nat) :
    run (n + 2) (alone s (callAt address p pc [])) = .returned s [] := by
  show run (n + 1) (advance s 1 1 (callAt address p pc []) [] []) = _
  rw [advance_callAt hcode]
  rfl

/-- A global is looked up in the table that the function has for it. -/
theorem effect_index {scope : Nat} {name : Bytes} {v : Value} (origin : Option Origin)
    (hname : (s.table scope).getString name = v) (hv : v.isNil = false) :
    effect s (callAt address p pc (.string name :: .table scope :: stack)) (.index origin) =
      .next s (callAt address p pc (v :: stack)) := by
  show found s (callAt address p pc stack) origin _ _
    (s.lookup (.string name) Store.maxChain (.table scope)) = _
  rw [Store.lookup_of_getString hname hv]
  rfl

theorem effect_loadUpvalue {cell : Nat} {v : Value}
    (hclosure : s.closures.getD address default = ⟨p, #[cell]⟩) (hcell : s.cell cell = v) :
    effect s (callAt address p pc stack) (.loadUpvalue 0) =
      .next s (callAt address p pc (v :: stack)) := by
  have hvalue : s.cell (captured s (callAt address p pc stack) (.ofUpvalue 0)) = v := by
    rw [captured, show (callAt address p pc stack).closure = address from rfl, hclosure]
    exact hcell
  show Effect.next s ((callAt address p pc stack).push (s.cell _)) = _
  rw [hvalue]
  rfl

/-- A field is set in a table that is empty. -/
theorem effect_setIndex {a : Nat} {name : Bytes} {v : Value} (origin : Option Origin)
    (h : s.table a = {}) :
    effect s (callAt address p pc (v :: .string name :: .table a :: stack)) (.setIndex 0 origin) =
      .next (s.modifyTable a (·.set (.string name) v))
        (callAt address p pc (.string name :: .table a :: stack)) := by
  show assigned s _ origin _ _ v (s.assign (.string name) v Store.maxChain (.table a)) = _
  rw [Store.assign_of_empty h]
  rfl

end Straight

/-- The run of a function that stores the handles: in the end they stand in the table for the
results. -/
theorem run_storing {s : Store} {address cell scope results : Nat} {p : Prototype} {key : Bytes}
    {host : Value} (hparameters : p.parameters = 0)
    (hcode : p.code.toList.map Step.instr = storing key)
    (hclosure : s.closures.getD address default = ⟨p, #[cell]⟩)
    (hcell : s.cell cell = .table scope)
    (hresults : (s.table scope).getString "__result__" = .table results)
    (hempty : s.table results = {}) (hhost : (s.table scope).getString "__host__" = host)
    (hnil : host.isNil = false) (n : Nat) :
    run (n + 12) ⟨s, [], [], .call (.closure address) []⟩ =
      .returned (s.modifyTable results (·.set (.string key) host)) [] := by
  have hat (pc : Nat) : (p.code.toList.map Step.instr)[pc]? = (storing key)[pc]? := by rw [hcode]
  calc
    _ = run (n + 11) (alone s (callAt address p 0 [])) := run_call hparameters hclosure _
    _ = run (n + 10) (alone s (callAt address p 1 [.table scope])) :=
      run_next (hat 0) (effect_loadUpvalue hclosure hcell) _
    _ = run (n + 9) (alone s (callAt address p 2 [.string "__result__", .table scope])) :=
      run_next (hat 1) rfl _
    _ = run (n + 8) (alone s (callAt address p 3 [.table results])) :=
      run_next (hat 2) (effect_index _ hresults rfl) _
    _ = run (n + 7) (alone s (callAt address p 4 [.string key, .table results])) :=
      run_next (hat 3) rfl _
    _ = run (n + 6) (alone s (callAt address p 5 [.table scope, .string key, .table results])) :=
      run_next (hat 4) (effect_loadUpvalue hclosure hcell) _
    _ = run (n + 5) (alone s (callAt address p 6
          [.string "__host__", .table scope, .string key, .table results])) :=
      run_next (hat 5) rfl _
    _ = run (n + 4) (alone s (callAt address p 7 [host, .string key, .table results])) :=
      run_next (hat 6) (effect_index _ hhost hnil) _
    _ = run (n + 3) (alone (s.modifyTable results (·.set (.string key) host))
          (callAt address p 8 [.string key, .table results])) :=
      run_next (hat 7) (effect_setIndex _ hempty) _
    _ = run (n + 2) (alone (s.modifyTable results (·.set (.string key) host))
          (callAt address p 9 [])) := run_next (hat 8) rfl _
    _ = _ := run_leave (hat 9) n

end Machine

/-! ## What a script has for the handles and the results -/

namespace Interpreter

/-- The results are an empty table, apart from the tables of the handles: the value of these stands
for them in every store that differs in the results only. -/
structure Apart (s : Store) (v : Invocation) (host : Value) (results first : Nat) : Prop where
  ne : scopeAddress ≠ results
  lt : results < s.tables.size
  empty : s.table results = {}
  found : (s.table scopeAddress).getString "__result__" = .table results
  passed : (s.table scopeAddress).getString "__host__" = host
  shows : ∀ t : Store, t.tables.size = s.tables.size →
    (∀ a, a ≠ results → t.table a = s.table a) → t.Shows first host v.handles.toJson

theorem prepared_apart {s : Store} (h : s.Founded) (v : Invocation) (sink : Nat) :
    ∃ host results first, Apart (prepared s v sink) v host results first := by
  obtain ⟨hf, -, -⟩ := withPrinter_begun h sink
  have heq := prepared_eq h v sink
  obtain ⟨more, host, hb, hshows⟩ := bindings_apart (withPrinter (begun s) sink) v
  generalize withPrinter (begun s) sink = s₀ at *
  rw [hb] at heq
  dsimp only at heq
  obtain ⟨-, -, hlt, hresults⟩ := s₀.extended_push more {}
  have hplace : scopeAddress < s₀.tables.size := Nat.lt_of_lt_of_le (by decide) hf.tables
  have hkeeps : Store.Keeps 0 (s₀.extended more) (s₀.extended (more.push {})) := by
    rw [Array.push_eq_append, ← Store.extended_extended]
    exact Store.keeps_extended _ _ _
  have htable (a : Nat) : (prepared s v sink).table a =
      if a = scopeAddress then
        (s.table scopeAddress).withFields
          (fieldsOf host (.table (s₀.tables.size + more.size)) v)
      else (s₀.extended (more.push {})).table a := by
    rw [heq, Store.table_setTable]
  have hsize : (prepared s v sink).tables.size = (s₀.extended (more.push {})).tables.size := by
    rw [heq]
    exact Store.size_tables_setTable _ (Nat.lt_trans (by omega) hlt)
  have own (field : String × Value)
      (hm : field ∈ fieldsOf host (.table (s₀.tables.size + more.size)) v) :
      ((prepared s v sink).table scopeAddress).getString (Bytes.ofString field.1) = field.2 := by
    rw [htable, if_pos rfl]
    refine Table.getString_withFields _ ?_ hm
    exact nodup_ownNames
  exact ⟨host, s₀.tables.size + more.size, s₀.tables.size, {
    ne := by omega
    lt := hsize ▸ hlt
    empty := by rw [htable, if_neg (by omega), hresults]
    found := own ("__result__", _) (by simp [fieldsOf])
    passed := own ("__host__", host) (by simp [fieldsOf])
    shows := fun t ht hsame => by
      refine hshows.mono ⟨?_, fun a hle ha => ?_⟩ (Nat.le_refl _)
      · rw [ht, hsize]
        exact hkeeps.size
      · have hbefore : a < s₀.tables.size + more.size := by simpa [Store.extended] using ha
        rw [hsame a (by omega), htable, if_neg (by omega)]
        exact hkeeps.table a (Nat.zero_le a) ha }⟩

variable {s t : Store} {v : Invocation} {host : Value} {results first : Nat}

/-- That depends on the tables of a store only. -/
theorem Apart.of_tables (h : Apart s v host results first) (ht : t.tables = s.tables) :
    Apart t v host results first := by
  have htable (a : Nat) : t.table a = s.table a := by rw [Store.table, Store.table, ht]
  exact {
    ne := h.ne
    lt := ht ▸ h.lt
    empty := (htable _).trans h.empty
    found := htable scopeAddress ▸ h.found
    passed := htable scopeAddress ▸ h.passed
    shows := fun u hu hsame => by
      rw [ht] at hu
      exact h.shows u hu fun a ha => (hsame a ha).trans (htable a) }

/-- The handles are a table. -/
theorem Apart.isNil_host (h : Apart s v host results first) : host.isNil = false :=
  (h.shows s rfl fun _ _ => rfl).isNil_eq_false

/-- The table for the results with one field in it. -/
theorem pairs_set_empty (name : Bytes) {x : Value} (hx : x.isNil = false) :
    (Table.set {} (.string name) x).pairs = [(.string name, x)] := by
  have hnone : ∀ field ∈ (Table.fields {}), field.1 ≠ .string name := by simp
  have hfields := Table.toList_setField_of_notMem hnone hx
  show (Table.setField {} (.string name) x).pairs = _
  rw [Table.pairs, Table.items_setField, hfields]
  exact List.filter_cons_of_pos (by rw [hx]; rfl)

/-- **What is published** where the handles stand in the results. -/
theorem Apart.report (h : Apart s v host results first) (hplain : v.handles.toJson.isPlain)
    (key : String) :
    (succeeded (s.modifyTable results (·.set (.string (Bytes.ofString key)) host))).2.report =
      { results := [(key, v.handles.toJson.narrowed ofFloat)] } := by
  have hothers (a : Nat) (ha : a ≠ results) :=
    s.table_modifyTable_of_ne ha (·.set (.string (Bytes.ofString key)) host)
  have hresults := s.table_modifyTable_self results (·.set (.string (Bytes.ofString key)) host)
  have hshows := h.shows _ (Store.size_tables_modifyTable h.lt _) hothers
  generalize s.modifyTable results (·.set (.string (Bytes.ofString key)) host) = t at *
  have htable : publishedTable? t = some (Table.set {} (.string (Bytes.ofString key)) host) := by
    rw [publishedTable?, hothers _ h.ne, h.found]
    dsimp only
    rw [hresults, h.empty]
  have hname : resultName? (.string (Bytes.ofString key)) = some key := Bytes.text?_ofString key
  have hnamed : ∀ pair ∈ [(Value.string (Bytes.ofString key), host)], Named pair :=
    List.forall_mem_singleton.2 (by rw [Named, hname]; rfl)
  have hfield : published? t (.string (Bytes.ofString key), host) =
      some (key, v.handles.toJson.narrowed ofFloat) :=
    published?_eq_some_iff.2 ⟨hname, hshows.toJson hplain⟩
  rw [report_succeeded, htable, Option.map_some, Option.getD_some, pairs_set_empty _ h.isNil_host,
    publishedBy_eq, takeWhile_named hnamed, List.filterMap_cons, hfield]
  rfl

/-! ## Runs -/

/-- A text that is code begins as a function that shares the table of globals with nothing else. -/
theorem start?_of_ofText (i : Interpreter) {source : String} {p : Prototype}
    (h : Prototype.ofText (Basics.shownChunk (chunkName v.path)) source = .ok p) (sink : Nat) :
    ∃ s address cell, i.start? v sink source = some ⟨s, [], [], .call (.closure address) []⟩ ∧
      s.tables = (prepared i.store v sink).tables ∧
      s.closures.getD address default = ⟨p, #[cell]⟩ ∧ s.cell cell = .table scopeAddress := by
  rw [start?, Basics.loaded, h]
  generalize prepared i.store v sink = s
  refine ⟨_, _, s.cells.size, rfl, rfl, ?_, ?_⟩
  · simp
  · simp [Store.cell]

/-- The script that stores the handles comes to its end, and has published them. -/
theorem exists_run_storing {i : Interpreter} (hi : i.store.Founded) (v : Invocation) (sink : Nat)
    {source key : String} (hstores : StoresHost source key) (hplain : v.handles.toJson.isPlain) :
    ∃ start s, i.start? v sink source = some start ∧ start.run Machine.fuel = .returned s [] ∧
      (succeeded s).2.report = { results := [(key, v.handles.toJson.narrowed ofFloat)] } := by
  obtain ⟨host, results, first, hprepared⟩ := prepared_apart hi v sink
  obtain ⟨p, hp, hparameters, hcode⟩ := ofText_of_storesHost hstores _
  obtain ⟨s, address, cell, hstart, htables, hclosure, hcell⟩ := start?_of_ofText i hp sink
  have hs := hprepared.of_tables htables
  have hrun := Machine.run_storing hparameters hcode hclosure hcell hs.found hs.empty hs.passed
    hs.isNil_host 3999999988
  exact ⟨_, _, hstart, hrun, hs.report hplain key⟩

end Interpreter

namespace Pool

/-- **A script that stores the handles** has succeeded, whatever calls the pool has served, and its
one result are the handles, but for integers that have no room. -/
theorem run_of_storesHost (layouts : Nat → Layout) (calls : List Call) (c : Call)
    {source key : String} (hread : c.files.readText c.invocation.path = .ok source)
    (hstores : StoresHost (withoutMarks source) key)
    (hplain : c.invocation.handles.toJson.isPlain) :
    ((calls.foldl perform { layouts }).run c.files c.invocation c.sink).2.outcome = .succeeded ∧
      ((calls.foldl perform { layouts }).run c.files c.invocation c.sink).2.report =
        { results := [(key, c.invocation.handles.toJson.narrowed ofFloat)] } := by
  obtain ⟨runs, hp⟩ := exists_remembers layouts calls
  generalize calls.foldl perform { layouts } = p at *
  have hfounded := (hp.acquire c.invocation.handles.document c.invocation.refresh).1
  obtain ⟨start, s, hstart, hend, hreport⟩ :=
    Interpreter.exists_run_storing hfounded c.invocation c.sink hstores hplain
  have hbegin : p.start? c = some start := by
    rw [start?, hread]
    exact hstart
  obtain ⟨houtcome, hrun⟩ := run_of_returned p c hbegin hend
  exact ⟨houtcome, hrun.trans hreport⟩

end Pool

end ScriptHost.Lua

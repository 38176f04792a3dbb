import ScriptHost.Proofs.Json
import ScriptHost.Proofs.Lua.Exit

/-!
# Results that a script publishes

The table that a script leaves under `__result__` is copied field by field, in the order of a walk
over it. A field is one of the results if its key is a text or a number and its value is JSON; a
value that is none is passed over, but a key that is none ends the walk (`publishedBy_eq`). So what
is published can depend on the order. `complete_iff`: all of the table is published whatever the
order, if and only if no key of it ends a walk, or there is nothing to publish, and no other key is
written like a text under which something else stands. `published_iff` says the same of runs.
-/

namespace ScriptHost

namespace Lua

namespace Interpreter

variable {s : Store} {pairs walk : List (Value × Value)}

/-! ## What a walk publishes -/

/-- Can a key stand in the results? If it cannot, a walk ends there. -/
def Named (pair : Value × Value) : Prop := (resultName? pair.1).isSome = true

instance : DecidablePred Named := fun pair => by unfold Named; infer_instance

/-- What a field of the table publishes. -/
def published? (s : Store) (pair : Value × Value) : Option (String × Json) :=
  match resultName? pair.1, s.toJson pair.2 with
  | some name, .ok json => some (name, json)
  | _, _ => none

/-- What is published in the order of a walk. -/
def publishedBy (s : Store) (walk : List (Value × Value)) : List (String × Json) :=
  (copyResults s walk ([], [])).1

theorem copyResults_eq (s : Store) (walk : List (Value × Value))
    (acc : List (String × Json) × List Log.Event) :
    (copyResults s walk acc).1 =
      ((walk.takeWhile fun pair => decide (Named pair)).filterMap (published? s)).foldl
        (fun fields field => Json.insertField field.1 field.2 fields) acc.1 := by
  induction walk generalizing acc with
  | nil => rfl
  | cons pair rest ih =>
    obtain ⟨key, value⟩ := pair
    obtain ⟨fields, events⟩ := acc
    rw [copyResults]
    cases hname : resultName? key with
    | none => rw [List.takeWhile_cons_of_neg (by simp [Named, hname])]; rfl
    | some name =>
      rw [List.takeWhile_cons_of_pos (by simp [Named, hname]), List.filterMap_cons]
      cases hjson : s.toJson value with
      | error e => simp only [published?, hname, hjson, ih]
      | ok json => simp only [published?, hname, hjson, ih, List.foldl_cons]

/-- The fields before the first key that cannot stand in the results are published, as far as they
are JSON. -/
theorem publishedBy_eq (s : Store) (walk : List (Value × Value)) :
    publishedBy s walk =
      Json.sortFields ((walk.takeWhile fun pair => decide (Named pair)).filterMap (published? s)) :=
  copyResults_eq s walk ([], [])

theorem published?_eq_some_iff {pair : Value × Value} {field : String × Json} :
    published? s pair = some field ↔
      resultName? pair.1 = some field.1 ∧ s.toJson pair.2 = .ok field.2 := by
  obtain ⟨name, json⟩ := field
  unfold published?
  split
  · rename_i hname hjson
    simp [hname, hjson]
  · rename_i hother
    exact ⟨fun h => (nomatch h), fun h => (hother _ _ h.1 h.2).elim⟩

/-- The last field of a name that is published stays. -/
theorem lookup_publishedBy (s : Store) (walk : List (Value × Value)) (name : String) :
    (publishedBy s walk).lookup name =
      ((walk.takeWhile fun pair => decide (Named pair)).filterMap (published? s)).reverse.lookup
        name := by
  rw [publishedBy_eq, Json.lookup_sortFields]

/-! ## Complete results -/

/-- Results have all of a table: what is JSON under a text stands under that text, what is JSON
under another key that can be written is not passed over, and nothing else is there. -/
structure Complete (s : Store) (pairs : List (Value × Value)) (results : List (String × Json)) :
    Prop where
  once : Json.Ascending results
  text (bs : Bytes) (value : Value) (h : (.string bs, value) ∈ pairs) (field : String × Json)
    (he : published? s (.string bs, value) = some field) : results.lookup field.1 = some field.2
  other (pair : Value × Value) (h : pair ∈ pairs) (field : String × Json)
    (he : published? s pair = some field) : ∃ json, results.lookup field.1 = some json
  nothingElse (name : String) (json : Json) (h : results.lookup name = some json) :
    ∃ pair ∈ pairs, published? s pair = some (name, json)

/-- No key ends a walk over the fields, unless there is nothing to publish. -/
def Unstopped (s : Store) (pairs : List (Value × Value)) : Prop :=
  (∀ pair ∈ pairs, Named pair) ∨ ∀ pair ∈ pairs, published? s pair = none

/-- What is published under a text is published under no other key that is written like it, unless
it is the same. -/
def Unshadowed (s : Store) (pairs : List (Value × Value)) : Prop :=
  ∀ bs value, (.string bs, value) ∈ pairs → ∀ name json,
    published? s (.string bs, value) = some (name, json) →
    ∀ pair ∈ pairs, ∀ json', published? s pair = some (name, json') → json' = json

theorem mem_of_lookup {fields : List (String × Json)} {name : String} {json : Json}
    (h : fields.lookup name = some json) : (name, json) ∈ fields := by
  induction fields with
  | nil => cases h
  | cons field rest ih =>
    obtain ⟨other, old⟩ := field
    rw [Json.lookup_cons_eq] at h
    split at h
    · rename_i hname
      cases h
      exact hname ▸ List.mem_cons_self
    · exact List.mem_cons_of_mem _ (ih h)

theorem exists_lookup_of_mem {fields : List (String × Json)} {field : String × Json}
    (h : field ∈ fields) : ∃ json, fields.lookup field.1 = some json := by
  induction fields with
  | nil => cases h
  | cons first rest ih =>
    rw [Json.lookup_cons_eq]
    split
    · exact ⟨_, rfl⟩
    · rename_i hne
      rcases List.mem_cons.1 h with rfl | h
      · exact absurd rfl hne
      · exact ih h

/-- Whatever is published stands in the table that is walked over. -/
theorem exists_entry_of_lookup {name : String} {json : Json}
    (h : (publishedBy s walk).lookup name = some json) :
    ∃ pair ∈ walk, published? s pair = some (name, json) := by
  rw [lookup_publishedBy] at h
  obtain ⟨pair, hpair, hentry⟩ := List.mem_filterMap.1 (List.mem_reverse.1 (mem_of_lookup h))
  exact ⟨pair, (List.takeWhile_prefix _).subset hpair, hentry⟩

theorem takeWhile_named (h : ∀ pair ∈ walk, Named pair) :
    walk.takeWhile (fun pair => decide (Named pair)) = walk :=
  List.takeWhile_eq_self_iff.2 fun pair hpair => decide_eq_true (h pair hpair)

theorem exists_lookup_of_entry (h : ∀ pair ∈ walk, Named pair) {pair : Value × Value}
    (hpair : pair ∈ walk) {field : String × Json} (he : published? s pair = some field) :
    ∃ json, (publishedBy s walk).lookup field.1 = some json := by
  rw [lookup_publishedBy, takeWhile_named h]
  exact exists_lookup_of_mem (List.mem_reverse.2 (List.mem_filterMap.2 ⟨pair, hpair, he⟩))

theorem complete_of_walk (hwalk : walk.Perm pairs) (hstop : Unstopped s pairs)
    (hshadow : Unshadowed s pairs) : Complete s pairs (publishedBy s walk) := by
  have hentry {pair : Value × Value} (hpair : pair ∈ pairs) {field : String × Json}
      (he : published? s pair = some field) :
      ∃ json, (publishedBy s walk).lookup field.1 = some json := by
    rcases hstop with hnamed | hnone
    · refine exists_lookup_of_entry (fun p hp => hnamed p (hwalk.subset hp)) ?_ he
      exact hwalk.symm.subset hpair
    · rw [hnone pair hpair] at he
      cases he
  have honly {name : String} {json : Json}
      (h : (publishedBy s walk).lookup name = some json) :
      ∃ pair ∈ pairs, published? s pair = some (name, json) := by
    obtain ⟨pair, hpair, he⟩ := exists_entry_of_lookup h
    exact ⟨pair, hwalk.subset hpair, he⟩
  refine ⟨?_, ?_, fun pair hpair field he => hentry hpair he, fun name json h => honly h⟩
  · rw [publishedBy_eq]
    exact Json.ascending_sortFields _
  · rintro bs value hpair ⟨name, json⟩ he
    obtain ⟨json', hlookup⟩ := hentry hpair he
    obtain ⟨pair, hmem, he'⟩ := honly hlookup
    rw [hlookup, hshadow bs value hpair name json he pair hmem json' he']

/-- A walk that begins with a key that cannot stand in the results publishes nothing. -/
theorem publishedBy_of_not_named {pair : Value × Value} (h : ¬ Named pair)
    (rest : List (Value × Value)) : publishedBy s (pair :: rest) = [] := by
  rw [publishedBy_eq, List.takeWhile_cons_of_neg (by simpa using h)]
  rfl

theorem unstopped_of_complete
    (h : ∀ walk : List (Value × Value), walk.Perm pairs → Complete s pairs (publishedBy s walk)) :
    Unstopped s pairs := by
  by_contra hnot
  obtain ⟨hnamed, hnone⟩ := not_or.1 hnot
  push Not at hnamed hnone
  obtain ⟨stop, hstop, hunnamed⟩ := hnamed
  obtain ⟨pair, hpair, hentry⟩ := hnone
  obtain ⟨field, he⟩ := Option.ne_none_iff_exists'.1 hentry
  obtain ⟨before, after, rfl⟩ := List.append_of_mem hstop
  -- the walk that comes to that key first
  obtain ⟨json, hlookup⟩ := (h _ List.perm_middle.symm).other pair hpair field he
  rw [publishedBy_of_not_named hunnamed] at hlookup
  cases hlookup

/-- A walk over fields that can all stand in the results ends with what it publishes last. -/
theorem lookup_publishedBy_concat (hw : ∀ pair ∈ walk, Named pair) {pair : Value × Value}
    {field : String × Json} (he : published? s pair = some field) :
    (publishedBy s (walk ++ [pair])).lookup field.1 = some field.2 := by
  have hnamed : Named pair := by
    rw [Named, (published?_eq_some_iff.1 he).1]
    rfl
  have hall : ∀ p ∈ walk ++ [pair], Named p :=
    List.forall_mem_append.2 ⟨hw, List.forall_mem_singleton.2 hnamed⟩
  rw [lookup_publishedBy, takeWhile_named hall, List.filterMap_append, List.filterMap_cons, he,
    List.filterMap_nil, List.reverse_append, List.reverse_singleton, List.singleton_append,
    Json.lookup_cons_eq, if_pos rfl]

theorem unshadowed_of_complete
    (h : ∀ walk : List (Value × Value), walk.Perm pairs → Complete s pairs (publishedBy s walk)) :
    Unshadowed s pairs := by
  intro bs value htext name json he pair hpair json' he'
  have hnamed : ∀ p ∈ pairs, Named p := by
    refine (unstopped_of_complete h).resolve_right fun hnone => ?_
    rw [hnone pair hpair] at he'
    cases he'
  obtain ⟨before, after, rfl⟩ := List.append_of_mem hpair
  -- the walk that comes to the other key last
  have hwalk : ((before ++ after) ++ [pair]).Perm (before ++ pair :: after) := by
    rw [List.append_assoc]
    exact List.Perm.append_left _ List.perm_append_comm
  have hlast : (publishedBy s ((before ++ after) ++ [pair])).lookup name = some json' := by
    refine lookup_publishedBy_concat (fun p hp => hnamed p ?_) he'
    exact hwalk.subset (List.mem_append_left _ hp)
  have hfirst := (h _ hwalk).text bs value htext (name, json) he
  exact Option.some.inj (hlast.symm.trans hfirst)

/-- All of a table is published whatever the order of the walk, exactly if no key ends it and no
text is written over. -/
theorem complete_iff (s : Store) (pairs : List (Value × Value)) :
    (∀ walk : List (Value × Value), walk.Perm pairs → Complete s pairs (publishedBy s walk)) ↔
      Unstopped s pairs ∧ Unshadowed s pairs :=
  ⟨fun h => ⟨unstopped_of_complete h, unshadowed_of_complete h⟩,
    fun h _ hwalk => complete_of_walk hwalk h.1 h.2⟩

/-! ## Runs -/

/-- The table that a script has left for its results. -/
def publishedTable? (s : Store) : Option Table :=
  match (s.table scopeAddress).getString "__result__" with
  | .table a => some (s.table a)
  | _ => none

/-- What has been written does not matter for what values are as JSON. -/
theorem toJson_takeWritten (s : Store) (v : Value) : (takeWritten s).1.toJson v = s.toJson v := by
  have hfrom (fuel : Nat) (path : List Nat) (v : Value) :
      (takeWritten s).1.toJsonFrom fuel path v = s.toJsonFrom fuel path v := by
    induction fuel generalizing path v with
    | zero => rfl
    | succ fuel ih =>
      cases v with
      | table a =>
        have hfun : (takeWritten s).1.toJsonFrom fuel (a :: path) =
            s.toJsonFrom fuel (a :: path) := funext fun v => ih (a :: path) v
        rw [Store.toJsonFrom, Store.toJsonFrom, hfun]
        rfl
      | number n => cases n <;> rfl
      | _ => rfl
  exact hfrom _ _ _

theorem copyResults_takeWritten (s : Store) (walk : List (Value × Value))
    (acc : List (String × Json) × List Log.Event) :
    copyResults (takeWritten s).1 walk acc = copyResults s walk acc := by
  induction walk generalizing acc with
  | nil => rfl
  | cons pair rest ih => simp only [copyResults, toJson_takeWritten, ih]

theorem report_succeeded (s : Store) :
    (succeeded s).2.report =
      { results := ((publishedTable? s).map fun t => publishedBy s t.pairs).getD [] } := by
  have hresults : (results (takeWritten s).1).1 =
      ((publishedTable? s).map fun t => publishedBy s t.pairs).getD [] := by
    unfold results publishedTable?
    show (match (s.table scopeAddress).getString "__result__" with
      | .table a => copyResults (takeWritten s).1 (s.table a).pairs ([], [])
      | _ => ([], [])).1 = _
    cases (s.table scopeAddress).getString "__result__" with
    | table a => exact congrArg Prod.fst (copyResults_takeWritten s _ _)
    | _ => rfl
  rw [← hresults]
  rfl

end Interpreter

namespace Pool

open Interpreter (publishedTable? publishedBy Complete Unstopped Unshadowed)

theorem run_of_returned (p : Pool) (c : Call) {start : Machine} {s : Store} {vs : List Value}
    (hstart : p.start? c = some start) (hend : start.run Machine.fuel = .returned s vs) :
    (p.run c.files c.invocation c.sink).2.outcome = .succeeded ∧
      (p.run c.files c.invocation c.sink).2.report = (Interpreter.succeeded s).2.report := by
  unfold start? at hstart
  split at hstart
  · cases hstart
  rename_i source hread
  have hseen : (p.run c.files c.invocation c.sink).2.seen c.sink =
      (Interpreter.succeeded s).2.seen c.sink := by
    rw [Pool.run, hread]
    dsimp only
    rw [seen_runText, Interpreter.run_of_start? hstart, hend]
    rfl
  exact ⟨congrArg (·.1) hseen, congrArg (·.2.1) hseen⟩

/-- **Published results.** A script that comes to its end has succeeded, and what it has left in a
table under `__result__` is what is reported; without a table there are no results. Whatever the
order in which the table is walked over, all of it is published, if and only if none of its keys
ends the walk and none is written like a text under which something else stands. -/
theorem published_iff (p : Pool) (c : Call) {start : Machine} {s : Store} {vs : List Value}
    (hstart : p.start? c = some start) (hend : start.run Machine.fuel = .returned s vs) :
    (p.run c.files c.invocation c.sink).2.outcome = .succeeded ∧
    (∀ t, publishedTable? s = some t →
      (p.run c.files c.invocation c.sink).2.report = { results := publishedBy s t.pairs } ∧
      ((∀ walk : List (Value × Value), walk.Perm t.pairs →
          Complete s t.pairs (publishedBy s walk)) ↔
        Unstopped s t.pairs ∧ Unshadowed s t.pairs)) ∧
    (publishedTable? s = none → (p.run c.files c.invocation c.sink).2.report = {}) := by
  obtain ⟨houtcome, hreport⟩ := run_of_returned p c hstart hend
  rw [Interpreter.report_succeeded] at hreport
  refine ⟨houtcome, fun t ht => ⟨?_, Interpreter.complete_iff s t.pairs⟩, fun hnone => ?_⟩
  · rw [hreport, ht]
    rfl
  · rw [hreport, hnone]
    rfl

/-! ### Scripts that publish -/

/-- A script that comes to its end, with what its store holds there. -/
theorem exists_returned {text : String} {P : Store → Bool}
    (h : ((start? {} (script 0 text)).any fun m =>
      match m.run Machine.fuel with
      | .returned s _ => P s
      | _ => false) = true) :
    ∃ start s vs, start? {} (script 0 text) = some start ∧
      start.run Machine.fuel = .returned s vs ∧ P s = true := by
  obtain ⟨start, hstart, hended⟩ := (Option.any_eq_true _ _).1 h
  split at hended
  · rename_i s vs hend
    exact ⟨start, s, vs, hstart, hend, hended⟩
  · cases hended

/-- A text, a number and a function under keys that can be written. -/
def mixedTable : String :=
  "__result__.a = 2\n__result__[3] = \"c\"\n__result__.f = print"

/-- All that is JSON is published, and the function is passed over. -/
theorem published_mixedTable :
    ∃ start s vs t, start? {} (script 0 mixedTable) = some start ∧
      start.run Machine.fuel = .returned s vs ∧ publishedTable? s = some t ∧
      (run {} (script 0 mixedTable).files (script 0 mixedTable).invocation 0).2.report =
        { results := publishedBy s t.pairs } ∧
      (publishedBy s t.pairs).map Prod.fst = ["3", "a"] ∧
      ((∀ walk : List (Value × Value), walk.Perm t.pairs →
          Complete s t.pairs (publishedBy s walk)) ↔
        Unstopped s t.pairs ∧ Unshadowed s t.pairs) := by
  have hruns : ∃ start s vs, start? {} (script 0 mixedTable) = some start ∧
      start.run Machine.fuel = .returned s vs ∧
      ((publishedTable? s).any fun t =>
        (publishedBy s t.pairs).map Prod.fst == ["3", "a"]) = true :=
    exists_returned (by rw [start?_script]; decide +kernel)
  obtain ⟨start, s, vs, hstart, hend, hnames⟩ := hruns
  obtain ⟨t, ht, hnames⟩ := (Option.any_eq_true _ _).1 hnames
  obtain ⟨hreport, hiff⟩ := (published_iff _ _ hstart hend).2.1 t ht
  exact ⟨start, s, vs, t, hstart, hend, ht, hreport, eq_of_beq hnames, hiff⟩

/-- A script that publishes something under `false`, and then something under a text. -/
def stoppedWalk : String := "__result__[false] = 1\n__result__.a = 2"

/-- Does a field have the number 2 under `a`? -/
def isTwo : Value × Value → Bool
  | (.string bs, .number (.int n)) => bs == Bytes.ofString "a" && n == 2
  | _ => false

/-- What stands under the text is JSON, and it is not published. -/
theorem not_complete_stoppedWalk :
    ∃ start s vs t value, start? {} (script 0 stoppedWalk) = some start ∧
      start.run Machine.fuel = .returned s vs ∧ publishedTable? s = some t ∧
      (.string (Bytes.ofString "a"), value) ∈ t.pairs ∧ s.toJson value = .ok (.int 2) ∧
      (runText {} plainInvocation 0 stoppedWalk).2.outcome = .succeeded ∧
      (runText {} plainInvocation 0 stoppedWalk).2.report.results = [] ∧
      ¬ Complete s t.pairs (runText {} plainInvocation 0 stoppedWalk).2.report.results := by
  have hruns : ∃ start s vs, start? {} (script 0 stoppedWalk) = some start ∧
      start.run Machine.fuel = .returned s vs ∧
      ((publishedTable? s).any fun t => t.pairs.any isTwo) = true :=
    exists_returned (by rw [start?_script]; decide +kernel)
  have hresults : (runText {} plainInvocation 0 stoppedWalk).2.report.results = [] := by
    have hempty : (runText {} plainInvocation 0 stoppedWalk).2.report.results.isEmpty = true := by
      decide +kernel
    exact List.isEmpty_iff.1 hempty
  obtain ⟨start, s, vs, hstart, hend, hfield⟩ := hruns
  obtain ⟨t, ht, hfield⟩ := (Option.any_eq_true _ _).1 hfield
  obtain ⟨⟨key, value⟩, hpair, hfield⟩ := List.any_eq_true.1 hfield
  unfold isTwo at hfield
  split at hfield
  · rename_i bs n heq
    obtain ⟨rfl, rfl⟩ := Prod.mk.inj heq
    obtain ⟨hbs, hn⟩ := (Bool.and_eq_true _ _).mp hfield
    obtain rfl := eq_of_beq hbs
    obtain rfl := eq_of_beq hn
    have houtcome := (published_iff _ _ hstart hend).1
    rw [run_script] at houtcome
    have hname : Interpreter.resultName? (.string (Bytes.ofString "a")) = some "a" := by
      decide +kernel
    have hentry : Interpreter.published? s (.string (Bytes.ofString "a"), .number (.int 2)) =
        some ("a", .int 2) := Interpreter.published?_eq_some_iff.2 ⟨hname, rfl⟩
    refine ⟨start, s, vs, t, _, hstart, hend, ht, hpair, rfl, houtcome, hresults, fun hc => ?_⟩
    have hlookup := hc.text _ _ hpair _ hentry
    rw [hresults] at hlookup
    cases hlookup
  · cases hfield

end Pool

end Lua

end ScriptHost

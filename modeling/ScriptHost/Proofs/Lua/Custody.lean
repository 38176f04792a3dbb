import Mathlib.Data.List.Perm.Basic
import ScriptHost.Proofs.List.Repetition
import ScriptHost.Proofs.Lua.Lifetime

/-!
# Where interpreters are

Whatever is asked of a pool, in any order and with any number of interpreters in use at a time, each
interpreter that was ever made is in one place: idle in the pool, in use, or dropped. `Custody` keeps
account of all three, of what was given out for which document, and of the order in which
interpreters came back. What a pool gives out, keeps and drops is then told from its lists by
document alone (`Custody.lawful_after`).
-/

namespace ScriptHost.Lua

/-- What is asked of a pool, and what is done with an interpreter in use: scripts change its store
and are counted, and it may be thrown away instead of coming back. -/
inductive Request where
  | acquire (document : String) (refresh : Bool)
  | work (id runs : Nat) (store : Store)
  | release (id : Nat)
  | discard (id : Nat)
  | teardown (document : String)

/-- A pool, the interpreters in use and those that were dropped. `given` has the numbers of those
that were given out, each with the document that was asked for, and `returns` the numbers of those
that came back, the last one in front. -/
structure Custody where
  pool : Pool
  held : List Interpreter := []
  dropped : List Interpreter := []
  given : List (Nat × String) := []
  returns : List Nat := []

namespace Custody

/-- The interpreter of a number, if it is in use, and the others in use. -/
def taken? (c : Custody) (id : Nat) : Option (Interpreter × List Interpreter) :=
  (c.held.find? fun i => i.id = id).map fun i => (i, c.held.eraseP fun i => i.id = id)

/-- What becomes of a request. One about an interpreter that is not in use does nothing. -/
def perform (c : Custody) : Request → Custody
  | .acquire document refresh =>
    let (pool, i) := c.pool.acquire document refresh
    let dropped := if refresh then c.pool.idleOf document ++ c.dropped else c.dropped
    { c with pool, held := i :: c.held, dropped, given := (i.id, document) :: c.given }
  | .work id runs store =>
    match c.taken? id with
    | some (i, others) => { c with held := { i with runs, store } :: others }
    | none => c
  | .release id =>
    match c.taken? id with
    | some (i, others) =>
      { c with pool := c.pool.release i, held := others, returns := id :: c.returns }
    | none => c
  | .discard id =>
    match c.taken? id with
    | some (i, others) => { c with held := others, dropped := i :: c.dropped }
    | none => c
  | .teardown document =>
    { c with
      pool := (c.pool.teardown document).1, dropped := c.pool.idleOf document ++ c.dropped }

/-- What requests to a new pool lead to. -/
def after (layouts : Nat → Layout) (requests : List Request) : Custody :=
  requests.foldl perform { pool := { layouts } }

/-- Everything that the pool has made, wherever it is. -/
def all (c : Custody) : List Interpreter := c.pool.idle ++ c.held ++ c.dropped

/-- The idle interpreter of a document that came back last. -/
def lastReturned? (c : Custody) (document : String) : Option Nat :=
  c.returns.find? fun id => id ∈ (c.pool.idleOf document).map Interpreter.id

/-- What can be said of a pool and its interpreters, and of the next thing that is asked of it. -/
structure Lawful (c : Custody) : Prop where
  /-- No number is used twice. -/
  distinct : (c.all.map Interpreter.id).Nodup
  /-- The numbers are those from one to the count of interpreters made. -/
  numbers : ∀ id, id ∈ c.all.map Interpreter.id ↔ 1 ≤ id ∧ id ≤ c.pool.created
  total : c.pool.created = c.pool.idle.length + c.held.length + c.dropped.length
  /-- No interpreter is given out for two documents. -/
  separate : ∀ {id document document'}, (id, document) ∈ c.given → (id, document') ∈ c.given →
    document = document'
  idle : ∀ document, ∀ i ∈ c.pool.idleOf document, i.document = document ∧ (i.id, document) ∈ c.given
  document : ∀ document refresh, (c.pool.acquire document refresh).2.document = document
  /-- While there are idle ones, the one that came back last is given out. -/
  reused : ∀ document i rest, c.pool.idleOf document = i :: rest →
    c.lastReturned? document = some i.id ∧
      ∃ q, c.pool.acquire document false = (q, i) ∧ q.created = c.pool.created ∧
        q.idleOf = Function.update c.pool.idleOf document rest
  /-- If there are none, or they are not wanted, a new one is made and none are left. -/
  made : ∀ document refresh, refresh = true ∨ c.pool.idleOf document = [] →
    ∃ q, c.pool.acquire document refresh =
        (q, .new (c.pool.created + 1) document (c.pool.layouts (c.pool.created + 1))) ∧
      q.created = c.pool.created + 1 ∧ q.idleOf = Function.update c.pool.idleOf document []
  released : ∀ i, (c.pool.release i).created = c.pool.created ∧
    (c.pool.release i).idleOf =
      Function.update c.pool.idleOf i.document (i :: c.pool.idleOf i.document)
  tornDown : ∀ document, ∃ q, c.pool.teardown document = (q, (c.pool.idleOf document).length) ∧
    q.created = c.pool.created ∧ q.idleOf = Function.update c.pool.idleOf document []

/-! ## What every request keeps -/

/-- The number of an interpreter and its document, which nobody changes. -/
def label (i : Interpreter) : Nat × String := (i.id, i.document)

/-- The interpreters have the numbers as far as they were counted, each one once. They were all given
out, for their documents and no others. The idle ones stand in the order in which they came back. -/
structure Kept (c : Custody) : Prop where
  numbered : (c.all.map Interpreter.id).Perm (List.range' 1 c.pool.created)
  given : ∀ entry, entry ∈ c.given ↔ entry ∈ c.all.map label
  recent : (c.pool.idle.map Interpreter.id).Sublist c.returns.eraseDups

variable {c : Custody}

theorem taken?_eq_some {id : Nat} {i : Interpreter} {others : List Interpreter}
    (h : c.taken? id = some (i, others)) : i.id = id ∧ c.held.Perm (i :: others) := by
  obtain ⟨j, hj, he⟩ := Option.map_eq_some_iff.1 h
  cases he
  obtain ⟨hid, before, rest, hheld, hbefore⟩ := List.find?_eq_some_iff_append.1 hj
  refine ⟨of_decide_eq_true hid, ?_⟩
  have hothers : c.held.eraseP (fun i => i.id = id) = before ++ rest := by
    rw [hheld, List.eraseP_append_right _ fun k hk => by simpa using hbefore k hk]
    simp [of_decide_eq_true hid]
  rw [hothers, hheld]
  exact List.perm_middle

theorem Kept.nodup (h : c.Kept) : (c.all.map Interpreter.id).Nodup :=
  h.numbered.nodup_iff.2 List.nodup_range'

/-- Nothing that is in use is idle. -/
theorem Kept.notMem_idle (h : c.Kept) {i : Interpreter} (hi : i ∈ c.held) :
    i.id ∉ c.pool.idle.map Interpreter.id := by
  have hnodup := h.nodup
  rw [all, List.append_assoc, List.map_append, List.nodup_append] at hnodup
  intro hidle
  refine hnodup.2.2 _ hidle _ ?_ rfl
  exact List.mem_map_of_mem (List.mem_append_left _ hi)

/-- The idle interpreters of a document are dropped, and all others stay where they are. -/
theorem perm_without (p : Pool) (document : String) (held dropped : List Interpreter) :
    ((p.without document).idle ++ held ++ (p.idleOf document ++ dropped)).Perm
      (p.idle ++ held ++ dropped) := by
  have hsplit : (p.idleOf document ++ (p.without document).idle).Perm p.idle := by
    have h := List.filter_append_perm (fun i => decide (i.document = document)) p.idle
    simpa only [Pool.idleOf, Pool.without, decide_not] using h
  refine (List.perm_append_comm_assoc _ _ _).trans ?_
  rw [List.append_assoc, List.append_assoc, ← List.append_assoc]
  exact hsplit.append_right _

theorem perm_id_of_label {is js : List Interpreter} (h : (is.map label).Perm (js.map label)) :
    (is.map Interpreter.id).Perm (js.map Interpreter.id) := by
  have hid (ks : List Interpreter) : (ks.map label).map Prod.fst = ks.map Interpreter.id :=
    List.map_map
  rw [← hid, ← hid]
  exact h.map Prod.fst

/-- Interpreters change places, and none is made. -/
theorem Kept.moved (h : c.Kept) {d : Custody} (created : d.pool.created = c.pool.created)
    (all : (d.all.map label).Perm (c.all.map label))
    (given : ∀ entry, entry ∈ d.given ↔ entry ∈ c.given)
    (recent : (d.pool.idle.map Interpreter.id).Sublist d.returns.eraseDups) : d.Kept where
  numbered := by
    rw [created]
    exact (perm_id_of_label all).trans h.numbered
  given entry := (given entry).trans ((h.given entry).trans all.mem_iff.symm)
  recent := recent

/-- A new interpreter is given out. -/
theorem Kept.added (h : c.Kept) {d : Custody} {i : Interpreter}
    (number : i.id = c.pool.created + 1) (created : d.pool.created = c.pool.created + 1)
    (all : d.all.Perm (i :: c.all)) (given : d.given = label i :: c.given)
    (recent : (d.pool.idle.map Interpreter.id).Sublist d.returns.eraseDups) : d.Kept where
  numbered := by
    rw [created, List.range'_1_concat, Nat.add_comm 1, ← number]
    refine (all.map Interpreter.id).trans ?_
    exact (h.numbered.cons i.id).trans (List.perm_append_singleton _ _).symm
  given entry := by
    rw [given, (all.map label).mem_iff, List.map_cons, List.mem_cons, List.mem_cons, h.given]
  recent := recent

theorem Kept.acquire (h : c.Kept) (document : String) (refresh : Bool) :
    (c.perform (.acquire document refresh)).Kept := by
  obtain ⟨before, i, rest, hidle, rfl, -, rfl, heq⟩ | ⟨hnone, heq⟩ :=
    c.pool.acquire_cases document refresh
  · have hgiven : label i ∈ c.given := by
      rw [h.given, all, hidle]
      exact List.mem_map_of_mem (by simp)
    rw [perform, heq]
    refine h.moved rfl (List.Perm.map _ ?_) (fun entry => ?_) ?_
    · show (before ++ rest ++ i :: c.held ++ c.dropped).Perm (c.pool.idle ++ c.held ++ c.dropped)
      rw [hidle]
      refine List.Perm.append_right _ (List.perm_middle.trans ?_)
      exact List.Perm.append_right c.held List.perm_middle.symm
    · show entry ∈ label i :: c.given ↔ entry ∈ c.given
      rw [List.mem_cons]
      exact or_iff_right_of_imp fun he => he ▸ hgiven
    · refine List.Sublist.trans (List.Sublist.map _ ?_) h.recent
      rw [hidle]
      exact List.Sublist.append_left (List.sublist_cons_self i rest) before
  · have hdropped : (if refresh then c.pool.idleOf document ++ c.dropped else c.dropped) =
        c.pool.idleOf document ++ c.dropped := by
      rcases hnone with rfl | hnone
      · rfl
      · simp [hnone]
    rw [perform, heq]
    dsimp only
    rw [hdropped]
    refine h.added rfl rfl ?_ rfl ?_
    · refine (List.perm_middle.append_right _).trans (List.Perm.cons _ ?_)
      exact perm_without c.pool document c.held c.dropped
    · exact List.Sublist.trans (List.Sublist.map _ List.filter_sublist) h.recent

theorem Kept.release (h : c.Kept) (id : Nat) : (c.perform (.release id)).Kept := by
  rw [perform]
  cases ht : c.taken? id with
  | none => exact h
  | some found =>
    obtain ⟨i, others⟩ := found
    obtain ⟨rfl, hheld⟩ := taken?_eq_some ht
    have hidle := h.notMem_idle (hheld.mem_iff.2 List.mem_cons_self)
    refine h.moved rfl (List.Perm.map _ ?_) (fun _ => .rfl) ?_
    · show (i :: c.pool.idle ++ others ++ c.dropped).Perm (c.pool.idle ++ c.held ++ c.dropped)
      refine List.Perm.append_right _ (List.perm_middle.symm.trans ?_)
      exact List.Perm.append_left _ hheld.symm
    · show (i.id :: c.pool.idle.map Interpreter.id).Sublist (i.id :: c.returns).eraseDups
      rw [List.eraseDups_cons, eraseDups_filter]
      refine List.Sublist.cons_cons _ ?_
      have hall : (c.pool.idle.map Interpreter.id).filter (fun n => !n == i.id) =
          c.pool.idle.map Interpreter.id :=
        List.filter_eq_self.2 fun n hn => by
          simpa using fun he : n = i.id => hidle (he ▸ hn)
      rw [← hall]
      exact h.recent.filter _

theorem Kept.discard (h : c.Kept) (id : Nat) : (c.perform (.discard id)).Kept := by
  rw [perform]
  cases ht : c.taken? id with
  | none => exact h
  | some found =>
    obtain ⟨i, others⟩ := found
    obtain ⟨-, hheld⟩ := taken?_eq_some ht
    refine h.moved rfl (List.Perm.map _ ?_) (fun _ => .rfl) h.recent
    show (c.pool.idle ++ others ++ i :: c.dropped).Perm (c.pool.idle ++ c.held ++ c.dropped)
    rw [List.append_assoc, List.append_assoc]
    refine List.Perm.append_left _ (List.perm_middle.trans ?_)
    exact hheld.symm.append_right c.dropped

theorem Kept.work (h : c.Kept) (id runs : Nat) (store : Store) :
    (c.perform (.work id runs store)).Kept := by
  rw [perform]
  cases ht : c.taken? id with
  | none => exact h
  | some found =>
    obtain ⟨i, others⟩ := found
    obtain ⟨-, hheld⟩ := taken?_eq_some ht
    refine h.moved rfl ?_ (fun _ => .rfl) h.recent
    have hsame : ((({ i with runs, store } : Interpreter) :: others).map label).Perm
        (c.held.map label) := (hheld.map label).symm
    simp only [all, List.map_append]
    exact (hsame.append_left _).append_right _

theorem Kept.teardown (h : c.Kept) (document : String) :
    (c.perform (.teardown document)).Kept := by
  rw [perform]
  refine h.moved rfl ((perm_without c.pool document c.held c.dropped).map _) (fun _ => .rfl) ?_
  exact List.Sublist.trans (List.Sublist.map _ List.filter_sublist) h.recent

theorem Kept.perform (h : c.Kept) (r : Request) : (c.perform r).Kept := by
  cases r with
  | acquire document refresh => exact h.acquire document refresh
  | work id runs store => exact h.work id runs store
  | release id => exact h.release id
  | discard id => exact h.discard id
  | teardown document => exact h.teardown document

theorem kept_after (layouts : Nat → Layout) (requests : List Request) :
    (after layouts requests).Kept := by
  suffices h : ∀ c : Custody, c.Kept → (requests.foldl Custody.perform c).Kept from
    h _ ⟨List.Perm.refl _, fun _ => .rfl, List.Sublist.refl _⟩
  induction requests with
  | nil => exact fun c h => h
  | cons r rest ih => exact fun c h => ih _ (h.perform r)

/-- The first idle interpreter of a document is the one of its idle ones that came back last. -/
theorem Kept.lastReturned?_eq (h : c.Kept) (document : String) :
    c.lastReturned? document = (c.pool.idleOf document).head?.map Interpreter.id := by
  have hsub : ((c.pool.idleOf document).map Interpreter.id).Sublist c.returns.eraseDups :=
    (List.filter_sublist.map Interpreter.id).trans h.recent
  rw [lastReturned?, ← find?_eraseDups, find?_mem_of_sublist hsub (nodup_eraseDups _),
    List.head?_map]

theorem Kept.lawful (h : c.Kept) : c.Lawful where
  distinct := h.nodup
  numbers id := by
    rw [h.numbered.mem_iff, List.mem_range'_1, Nat.add_comm, Nat.lt_succ_iff]
  total := by
    have hlength := h.numbered.length_eq
    rw [List.length_map, List.length_range', all, List.length_append, List.length_append] at hlength
    exact hlength.symm
  separate {id document document'} hd hd' := by
    obtain ⟨i, hi, he⟩ := List.mem_map.1 ((h.given _).1 hd)
    obtain ⟨j, hj, he'⟩ := List.mem_map.1 ((h.given _).1 hd')
    obtain ⟨rfl, rfl⟩ := Prod.mk.inj he
    obtain ⟨hid, rfl⟩ := Prod.mk.inj he'
    rw [List.inj_on_of_nodup_map h.nodup hi hj hid.symm]
  idle document i hi := by
    obtain ⟨hidle, rfl⟩ := Pool.mem_idleOf.1 hi
    refine ⟨rfl, (h.given _).2 (List.mem_map_of_mem (f := label) ?_)⟩
    exact List.mem_append_left _ (List.mem_append_left _ hidle)
  document := c.pool.document_acquire
  reused document i rest hidle := by
    refine ⟨?_, Pool.acquire_reused hidle⟩
    rw [h.lastReturned?_eq, hidle]
    rfl
  made document refresh hnone :=
    ⟨_, Pool.acquire_made hnone, rfl, Pool.idleOf_without c.pool document⟩
  released i := ⟨rfl, c.pool.idleOf_release i⟩
  tornDown document := ⟨_, rfl, rfl, c.pool.idleOf_without document⟩

/-- **Interpreters are kept apart and none is lost.** Whatever was asked of a new pool. -/
theorem lawful_after (layouts : Nat → Layout) (requests : List Request) :
    (after layouts requests).Lawful :=
  (kept_after layouts requests).lawful

example :
    let c := after (fun _ => .standard) [.acquire "a" false, .acquire "a" false, .acquire "b" false,
      .release 1, .release 2, .release 3, .acquire "a" false, .teardown "a", .acquire "b" true]
    (c.pool.created, c.pool.idle.map Interpreter.id, c.held.map Interpreter.id,
      c.dropped.map Interpreter.id) = (4, [], [4, 2], [3, 1]) := by
  rfl

/-! ## Scripts -/

/-- The interpreter goes back as what scripts have made of it. -/
theorem exists_afterRun (i : Interpreter) (v : Invocation) (sink : Nat) (source : String) :
    ∃ runs store, ((i.run v sink source).1.afterRun v.keepGlobals).1 = { i with runs, store } := by
  cases v.keepGlobals <;> exact ⟨_, _, rfl⟩

theorem taken?_head {i : Interpreter} {others : List Interpreter} (h : c.held = i :: others) :
    c.taken? i.id = some (i, others) := by
  simp [taken?, h]

/-- To run a script is to ask for an interpreter, to work with it and to give it back. -/
theorem exists_requests_runText (c : Custody) (v : Invocation) (sink : Nat) (source : String) :
    ∃ requests : List Request,
      (requests.foldl perform c).pool = (c.pool.runText v sink source).1 ∧
        (requests.foldl perform c).held = c.held := by
  rcases hacquire : c.pool.acquire v.handles.document v.refresh with ⟨q, i⟩
  obtain ⟨runs, store, hback⟩ := exists_afterRun i v sink (withoutMarks source)
  refine ⟨[.acquire v.handles.document v.refresh, .work i.id runs store, .release i.id], ?_⟩
  simp only [List.foldl_cons, List.foldl_nil]
  have hgiven : (c.perform (.acquire v.handles.document v.refresh)).pool = q ∧
      (c.perform (.acquire v.handles.document v.refresh)).held = i :: c.held := by
    rw [perform, hacquire]
    exact ⟨rfl, rfl⟩
  generalize c.perform (.acquire v.handles.document v.refresh) = given at hgiven ⊢
  have hworked : (given.perform (.work i.id runs store)).pool = q ∧
      (given.perform (.work i.id runs store)).held = { i with runs, store } :: c.held := by
    rw [perform, taken?_head hgiven.2]
    exact ⟨hgiven.1, rfl⟩
  generalize given.perform (.work i.id runs store) = worked at hworked ⊢
  rw [perform, taken?_head (i := { i with runs, store }) hworked.2]
  refine ⟨?_, rfl⟩
  show worked.pool.release { i with runs, store } = _
  rw [hworked.1, Pool.runText, hacquire, ← hback]

/-- **Scripts give back what they use.** Whatever calls a pool has served, requests lead to it that
leave nothing in use. -/
theorem exists_requests_runs (layouts : Nat → Layout) (calls : List Call) :
    ∃ requests : List Request,
      (after layouts requests).pool = calls.foldl Pool.perform { layouts } ∧
        (after layouts requests).held = [] := by
  induction calls using List.reverseRecOn with
  | nil => exact ⟨[], rfl, rfl⟩
  | append_singleton calls call ih =>
    obtain ⟨requests, hpool, hheld⟩ := ih
    rw [List.foldl_append, List.foldl_cons, List.foldl_nil, ← hpool, Pool.perform, Pool.run]
    cases call.files.readText call.invocation.path with
    | error fault => exact ⟨requests, rfl, hheld⟩
    | ok source =>
      obtain ⟨more, hmore, hsame⟩ :=
        (after layouts requests).exists_requests_runText call.invocation call.sink source
      refine ⟨requests ++ more, ?_⟩
      rw [after, List.foldl_append]
      exact ⟨hmore, hsame.trans hheld⟩

end Custody

end ScriptHost.Lua

import ScriptHost.Proofs.List.Repetition
import ScriptHost.Proofs.Registry.History

/-!
# The slots of a registry

What a registry lists is told from the modules that were registered since everything was forgotten
last (`registered`): there is one slot for each of their names, in the order in which the names came
up, and in it the last module of that name (`slots`). The table of digests leads from the digest of
each listed module to that module, and from no other digest to anything. A call that fails changes
neither (`indexed_after`).
-/

namespace ScriptHost.Registry

open Wasm (Compiled Module)

/-! ## What calls come to -/

/-- The name and the bytes that a call offers. A file is offered under its stem. -/
def Call.source? : Call → Option (String × List UInt8)
  | .getOrCompile name bytes => some (name, bytes)
  | .loadFile files path =>
    match files.read path, Path.stem? path with
    | .ok content, some name => some (name, content.toList)
    | _, _ => none
  | .clear => none

/-- What a call answers. -/
def answer (r : Registry) : Call → Option (Except ModuleError Compiled)
  | .getOrCompile name bytes => some ((r.getOrCompile name bytes).map Prod.snd)
  | .loadFile files path => some ((r.loadFile files path).map Prod.snd)
  | .clear => none

/-- The last module of each name, in the order in which the names came up. -/
def slots (log : List Compiled) : List Compiled :=
  (log.map (·.name)).eraseDups.filterMap fun name => log.reverse.find? fun c => c.name = name

/-- The modules that are registered after a call: one more, if the call offers bytes that compile
and whose digest no listed module has. -/
def register (log : List Compiled) : Call → List Compiled
  | .clear => []
  | call =>
    match call.source? with
    | none => log
    | some (name, bytes) =>
      if (slots log).any fun c => c.digest = Digest.sha256 bytes then log
      else log ++ (Compiled.compile? name bytes).toList

/-- The modules that were registered since everything was forgotten last. -/
def registered (calls : List Call) : List Compiled := calls.foldl register []

/-- What a call answers, and the registry after it. -/
inductive Step (r : Registry) : Call → Option (Except ModuleError Compiled) → Registry → Prop
  | cleared : Step r .clear none {}
  | unreadable {files path fault} : files.read path = .error fault →
      Step r (.loadFile files path) (some (.error (.unreadable path fault))) r
  | unnamed {files path content} : files.read path = .ok content → Path.stem? path = none →
      Step r (.loadFile files path) (some (.error (.unnamed path))) r
  | invalid {call name bytes} : call.source? = some (name, bytes) →
      (∀ d ∈ r.modules, d.digest ≠ Digest.sha256 bytes) → Compiled.compile? name bytes = none →
      Step r call (some (.error (.invalid name))) r
  | known {call name bytes c} : call.source? = some (name, bytes) →
      c ∈ r.modules → c.digest = Digest.sha256 bytes → Step r call (some (.ok c)) r
  /-- A new module takes the slot of the one of its name. -/
  | replaced {call name bytes c next i} {hi : i < r.modules.length} :
      call.source? = some (name, bytes) → (∀ d ∈ r.modules, d.digest ≠ Digest.sha256 bytes) →
      Compiled.compile? name bytes = some c → r.modules[i].name = name →
      next.modules = r.modules.set i c → Step r call (some (.ok c)) next
  | added {call name bytes c next} :
      call.source? = some (name, bytes) → (∀ d ∈ r.modules, d.digest ≠ Digest.sha256 bytes) →
      Compiled.compile? name bytes = some c → (∀ d ∈ r.modules, d.name ≠ name) →
      next.modules = r.modules ++ [c] → Step r call (some (.ok c)) next

/-- What can be said of a registry after calls, and of the next call. -/
structure Indexed (r : Registry) (calls : List Call) : Prop where
  listed : r.modules = slots (registered calls)
  names : (r.modules.map (·.name)).Nodup
  order : r.modules.map (·.name) = ((registered calls).map (·.name)).eraseDups
  digests : (r.byDigest.map Prod.fst).Nodup
  lookup : ∀ digest c, r.byDigest.lookup digest = some c ↔ c ∈ r.modules ∧ c.digest = digest
  /-- Digest and shape are those of the bytes of the module, under its name. -/
  described : ∀ c ∈ r.modules, ∃ bytes ∈ offered calls, ∃ m, Module.ofBytes? bytes = some m ∧
    m.isValid = true ∧
      c = ⟨c.name, Digest.sha256 bytes, m, m.shape c.name (Wasm.Binary.localNames bytes)⟩
  step : ∀ call, r.Step call (r.answer call) (r.perform call)
  failed : ∀ call e, r.answer call = some (.error e) → r.perform call = r
  /-- Bytes that are no module are refused under every name, as long as digests differ where bytes
  do. -/
  refused : ∀ name bytes,
    (∀ source ∈ offered calls, Digest.sha256 source = Digest.sha256 bytes → source = bytes) →
    Compiled.compile? name bytes = none → r.getOrCompile name bytes = .error (.invalid name)

/-! ## Slots -/

theorem exists_find?_reverse {log : List Compiled} {name : String}
    (h : name ∈ log.map (·.name)) :
    ∃ c, log.reverse.find? (fun c => c.name = name) = some c ∧ c.name = name := by
  obtain ⟨d, hd, hn⟩ := List.mem_map.1 h
  cases hf : log.reverse.find? fun c => c.name = name with
  | none => exact absurd hn (by simpa using List.find?_eq_none.1 hf d (List.mem_reverse.2 hd))
  | some c => exact ⟨c, rfl, by simpa using List.find?_some hf⟩

/-- Things that are found under their names stand under these names. -/
theorem map_name_filterMap {find : String → Option Compiled} {names : List String}
    (h : ∀ name ∈ names, ∃ c, find name = some c ∧ c.name = name) :
    (names.filterMap find).map (·.name) = names := by
  induction names with
  | nil => rfl
  | cons name rest ih =>
    obtain ⟨c, hc, hn⟩ := h name List.mem_cons_self
    rw [List.filterMap_cons_some hc, List.map_cons, hn,
      ih fun other ho => h other (List.mem_cons_of_mem _ ho)]

theorem map_name_slots (log : List Compiled) :
    (slots log).map (·.name) = (log.map (·.name)).eraseDups :=
  map_name_filterMap fun _ h => exists_find?_reverse (List.mem_eraseDups.1 h)

/-- A module is placed where its name is, or behind all others, and found under its name. -/
theorem place_filterMap {find : String → Option Compiled} {names : List String} (c : Compiled)
    (hn : names.Nodup) (h : ∀ name ∈ names, ∃ d, find name = some d ∧ d.name = name) :
    place c (names.filterMap find) =
      (if c.name ∈ names then names else names ++ [c.name]).filterMap
        (Function.update find c.name (some c)) := by
  induction names with
  | nil =>
    rw [if_neg List.not_mem_nil, List.nil_append,
      List.filterMap_cons_some (Function.update_self c.name (some c) find)]
    rfl
  | cons name rest ih =>
    obtain ⟨d, hd, hname⟩ := h name List.mem_cons_self
    rw [List.nodup_cons] at hn
    have ih := ih hn.2 fun other ho => h other (List.mem_cons_of_mem _ ho)
    rw [List.filterMap_cons_some hd, place, hname]
    by_cases hc : name = c.name
    · subst hc
      have hrest : rest.filterMap (Function.update find c.name (some c)) = rest.filterMap find :=
        List.filterMap_congr fun other ho =>
          Function.update_of_ne (fun he : other = c.name => hn.1 (he ▸ ho)) _ _
      rw [if_pos rfl, if_pos List.mem_cons_self,
        List.filterMap_cons_some (Function.update_self c.name (some c) find), hrest]
    · have hd' : Function.update find c.name (some c) name = some d :=
        (Function.update_of_ne hc _ _).trans hd
      rw [if_neg hc, ih]
      by_cases hm : c.name ∈ rest
      · rw [if_pos hm, if_pos (List.mem_cons_of_mem _ hm), List.filterMap_cons_some hd']
      · have hm' : c.name ∉ name :: rest := List.not_mem_cons_of_ne_of_not_mem (Ne.symm hc) hm
        rw [if_neg hm, if_neg hm', List.cons_append, List.filterMap_cons_some hd']

/-- A module that is registered is placed among the slots. -/
theorem slots_snoc (log : List Compiled) (c : Compiled) :
    slots (log ++ [c]) = place c (slots log) := by
  have hfound : ∀ name ∈ (log.map (·.name)).eraseDups,
      ∃ d, log.reverse.find? (fun d => d.name = name) = some d ∧ d.name = name :=
    fun _ h => exists_find?_reverse (List.mem_eraseDups.1 h)
  have hfind : (fun name => (log ++ [c]).reverse.find? fun d => d.name = name) =
      Function.update (fun name => log.reverse.find? fun d => d.name = name) c.name (some c) := by
    funext name
    rw [Function.update_apply, List.reverse_append, List.reverse_singleton, List.singleton_append,
      List.find?_cons]
    by_cases h : c.name = name
    · simp [h]
    · simp [h, Ne.symm h]
  rw [slots, slots, place_filterMap c (nodup_eraseDups _) hfound, List.map_append,
    List.map_singleton, eraseDups_snoc, hfind]
  simp only [List.mem_eraseDups]

/-- Placing a module keeps all others in their slots. -/
theorem place_cases (c : Compiled) (modules : List Compiled) :
    (∃ i, ∃ hi : i < modules.length, modules[i].name = c.name ∧
      place c modules = modules.set i c) ∨
    (∀ d ∈ modules, d.name ≠ c.name) ∧ place c modules = modules ++ [c] := by
  induction modules with
  | nil => exact .inr ⟨fun d hd => absurd hd List.not_mem_nil, rfl⟩
  | cons d rest ih =>
    rw [place]
    split
    · rename_i hd
      exact .inl ⟨0, Nat.zero_lt_succ _, hd, rfl⟩
    · rename_i hd
      obtain ⟨i, hi, hname, he⟩ | ⟨hnone, he⟩ := ih
      · exact .inl ⟨i + 1, Nat.succ_lt_succ hi, hname, by rw [he, List.set_cons_succ]⟩
      · refine .inr ⟨fun e hm => ?_, by rw [he, List.cons_append]⟩
        rcases List.mem_cons.1 hm with rfl | hm
        · exact hd
        · exact hnone e hm

/-! ## One call -/

section

variable {r : Registry} {sources : List (List UInt8)} {call : Call}

/-- What is answered to bytes under a name, whichever way they are offered. -/
theorem answer_of_source {name : String} {bytes : List UInt8}
    (hs : call.source? = some (name, bytes)) :
    r.answer call = some ((r.getOrCompile name bytes).map Prod.snd) ∧
      r.perform call = match r.getOrCompile name bytes with
        | .ok (next, _) => next
        | .error _ => r := by
  cases call with
  | getOrCompile _ _ =>
    cases hs
    exact ⟨rfl, rfl⟩
  | loadFile files path =>
    rw [Call.source?] at hs
    split at hs
    · rename_i content stem hr hn
      cases hs
      rw [answer, perform, loadFile, hr]
      dsimp only
      rw [hn]
      exact ⟨rfl, rfl⟩
    · cases hs
  | clear => cases hs

/-- Bytes under a name are known, or registered, or no module. -/
theorem WF.source_cases (h : WF r sources) {name : String} {bytes : List UInt8}
    (hs : call.source? = some (name, bytes)) :
    (∃ c ∈ r.modules, c.digest = Digest.sha256 bytes ∧
      r.answer call = some (.ok c) ∧ r.perform call = r) ∨
    (∀ d ∈ r.modules, d.digest ≠ Digest.sha256 bytes) ∧
      ((∃ c, Compiled.compile? name bytes = some c ∧
        r.answer call = some (.ok c) ∧ r.perform call = r.insert c) ∨
      Compiled.compile? name bytes = none ∧
        r.answer call = some (.error (.invalid name)) ∧ r.perform call = r) := by
  obtain ⟨ha, hp⟩ := answer_of_source (r := r) hs
  rw [ha, hp]
  by_cases known : ∃ c ∈ r.modules, c.digest = Digest.sha256 bytes
  · obtain ⟨c, hc, hd⟩ := known
    rw [getOrCompile_known name h hc hd]
    exact .inl ⟨c, hc, hd, rfl, rfl⟩
  · push Not at known
    refine .inr ⟨known, ?_⟩
    cases hc : Compiled.compile? name bytes with
    | none =>
      rw [getOrCompile_invalid h known hc]
      exact .inr ⟨rfl, rfl, rfl⟩
    | some c =>
      rw [getOrCompile_new h known hc]
      exact .inl ⟨c, rfl, rfl, rfl⟩

/-- A file that offers nothing cannot be read or has no stem. -/
theorem loadFile_cases {files : Files} {path : String}
    (hs : (Call.loadFile files path).source? = none) :
    (∃ fault, files.read path = .error fault ∧
      r.answer (.loadFile files path) = some (.error (.unreadable path fault))) ∨
    ∃ content, files.read path = .ok content ∧ Path.stem? path = none ∧
      r.answer (.loadFile files path) = some (.error (.unnamed path)) := by
  rw [answer, loadFile]
  cases hr : files.read path with
  | error fault => exact .inl ⟨fault, rfl, rfl⟩
  | ok content =>
    cases hn : Path.stem? path with
    | none => exact .inr ⟨content, rfl, rfl, rfl⟩
    | some name => simp [Call.source?, hr, hn] at hs

/-- A call that fails changes nothing. -/
theorem perform_of_error {e : ModuleError} (he : r.answer call = some (.error e)) :
    r.perform call = r := by
  cases call with
  | clear => cases he
  | getOrCompile name bytes =>
    rw [perform]
    rw [answer] at he
    cases hg : r.getOrCompile name bytes with
    | error _ => rfl
    | ok found =>
      rw [hg] at he
      cases he
  | loadFile files path =>
    rw [perform]
    rw [answer] at he
    cases hl : r.loadFile files path with
    | error _ => rfl
    | ok found =>
      rw [hl] at he
      cases he

theorem WF.step (h : WF r sources) (call : Call) :
    r.Step call (r.answer call) (r.perform call) := by
  cases hs : call.source? with
  | none =>
    cases call with
    | getOrCompile name bytes => cases hs
    | clear => exact .cleared
    | loadFile files path =>
      obtain ⟨fault, hr, ha⟩ | ⟨content, hr, hn, ha⟩ := loadFile_cases (r := r) hs
      · rw [perform_of_error ha, ha]
        exact .unreadable hr
      · rw [perform_of_error ha, ha]
        exact .unnamed hr hn
  | some source =>
    obtain ⟨c, hc, hd, ha, hp⟩ | ⟨new, ⟨c, hc, ha, hp⟩ | ⟨hc, ha, hp⟩⟩ := h.source_cases hs
    · rw [ha, hp]
      exact .known hs hc hd
    · have hname := name_of_compile hc
      rw [ha, hp]
      obtain ⟨i, hi, hslot, hplace⟩ | ⟨hnone, hplace⟩ := place_cases c r.modules
      · exact .replaced hs new hc (hslot.trans hname) hplace
      · exact .added hs new hc (hname ▸ hnone) hplace
    · rw [ha, hp]
      exact .invalid hs new hc

/-- Bytes that are no module have the digest of no listed module, unless they share it with other
bytes. -/
theorem WF.ne_digest_of_invalid (h : WF r sources) {name : String} {bytes : List UInt8}
    (distinct : ∀ source ∈ sources, Digest.sha256 source = Digest.sha256 bytes → source = bytes)
    (hc : Compiled.compile? name bytes = none) : ∀ d ∈ r.modules, d.digest ≠ Digest.sha256 bytes := by
  intro d hd he
  obtain ⟨source, hs, hcompiled⟩ := h.compiled d hd
  rw [distinct source hs ((digest_of_compile hcompiled).symm.trans he)] at hcompiled
  have hsome := isSome_compile name d.name bytes
  rw [hc, hcompiled] at hsome
  cases hsome

end

/-! ## All calls -/

/-- A registry lists the slots of the modules that were registered, and its table of digests has no
two entries for a digest. -/
structure Follows (r : Registry) (log : List Compiled) : Prop where
  listed : r.modules = slots log
  digests : (r.byDigest.map Prod.fst).Nodup

theorem Follows.insert {r : Registry} {log : List Compiled} (h : r.Follows log)
    {sources : List (List UInt8)} (hw : WF r sources) {c : Compiled}
    (new : ∀ d ∈ r.modules, d.digest ≠ c.digest) : (r.insert c).Follows (log ++ [c]) where
  listed := by
    rw [slots_snoc, ← h.listed]
    rfl
  digests := by
    have hnew : c.digest ∉ r.byDigest.map Prod.fst := by
      intro hm
      obtain ⟨⟨digest, d⟩, he, hd⟩ := List.mem_map.1 hm
      obtain ⟨hlisted, hdigest⟩ := hw.entries.1 he
      exact new d hlisted (hdigest.trans hd)
    have hkept {kept : List (Digest.State × Compiled)} (hsub : kept.Sublist r.byDigest) :
        ((kept ++ [(c.digest, c)]).map Prod.fst).Nodup := by
      have hkeys := hsub.map Prod.fst
      rw [List.map_append, List.map_singleton, List.nodup_append]
      refine ⟨h.digests.sublist hkeys, List.nodup_singleton _, fun a ha b hb he => ?_⟩
      rw [he, List.mem_singleton.1 hb] at ha
      exact hnew (hkeys.subset ha)
    rw [Registry.insert]
    dsimp only
    split
    · exact hkept List.filter_sublist
    · exact hkept (List.Sublist.refl _)

theorem register_of_source {log : List Compiled} {call : Call} {name : String}
    {bytes : List UInt8} (hs : call.source? = some (name, bytes)) :
    register log call = if (slots log).any fun c => c.digest = Digest.sha256 bytes then log
      else log ++ (Compiled.compile? name bytes).toList := by
  cases call with
  | clear => cases hs
  | getOrCompile _ _ | loadFile _ _ => simp only [register, hs]

theorem Follows.perform {r : Registry} {log : List Compiled} (h : r.Follows log)
    {sources : List (List UInt8)} (hw : WF r sources) (call : Call) :
    (r.perform call).Follows (register log call) := by
  cases hs : call.source? with
  | none =>
    cases call with
    | clear => exact ⟨rfl, .nil⟩
    | getOrCompile name bytes => cases hs
    | loadFile files path =>
      have hsame : r.perform (.loadFile files path) = r := by
        obtain ⟨fault, -, ha⟩ | ⟨content, -, -, ha⟩ := loadFile_cases (r := r) hs <;>
          exact perform_of_error ha
      rw [hsame]
      simpa only [register, hs] using h
  | some source =>
    obtain ⟨name, bytes⟩ := source
    rw [register_of_source hs, ← h.listed]
    obtain ⟨c, hc, hd, -, hp⟩ | ⟨new, hnew⟩ := hw.source_cases hs
    · rw [hp, if_pos (List.any_eq_true.2 ⟨c, hc, decide_eq_true hd⟩)]
      exact h
    · have hnone : ¬ (r.modules.any fun c => c.digest = Digest.sha256 bytes) = true := by
        simpa using new
      rw [if_neg hnone]
      obtain ⟨c, hc, -, hp⟩ | ⟨hc, -, hp⟩ := hnew
      · rw [hp, hc, Option.toList_some]
        exact h.insert hw (digest_of_compile hc ▸ new)
      · rw [hp, hc, Option.toList_none, List.append_nil]
        exact h

theorem follows_after (calls : List Call) : (after calls).Follows (registered calls) := by
  induction calls using List.reverseRecOn with
  | nil => exact ⟨rfl, .nil⟩
  | append_singleton calls call ih =>
    rw [after, registered, List.foldl_append, List.foldl_append]
    exact ih.perform (wf_after calls) call

/-- **A registry is indexed by name and by digest.** Whatever calls it has served. -/
theorem indexed_after (calls : List Call) : Indexed (after calls) calls := by
  have hw := wf_after calls
  have h := follows_after calls
  exact {
    listed := h.listed
    names := hw.names
    order := by rw [h.listed, map_name_slots]
    digests := h.digests
    lookup := fun _ _ => hw.lookup_eq_some
    described := fun c hc => by
      obtain ⟨bytes, hb, hcompiled⟩ := hw.compiled c hc
      exact ⟨bytes, hb, compile_eq_some.1 hcompiled⟩
    step := hw.step
    failed := fun _ _ => perform_of_error
    refused := fun _ _ distinct hc =>
      getOrCompile_invalid hw (hw.ne_digest_of_invalid distinct hc) hc }

end ScriptHost.Registry

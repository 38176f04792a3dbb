import Mathlib.Data.List.Induction
import Mathlib.Data.List.Nodup
import ScriptHost.Registry

/-!
# Registries over their history

A registry changes by calls only: bytes offered under a name, a file loaded, everything
forgotten. Whatever the calls were, the names are distinct, the digests are distinct, and the
table of digests has exactly the listed modules (`Registry.WF`). Every listed module is what
compiling bytes that were offered gives under the module's own name.
-/

namespace ScriptHost

open Wasm (Compiled)

/-- A call that may change a registry. -/
inductive Registry.Call where
  | getOrCompile (name : String) (bytes : List UInt8)
  | loadFile (files : Files) (path : String)
  | clear

namespace Registry

/-- The bytes that a call hands over to be compiled. -/
def Call.bytes? : Call → Option (List UInt8)
  | .getOrCompile _ bytes => some bytes
  | .loadFile files path => (files.read path).toOption.map (·.toList)
  | .clear => none

/-- The bytes that calls handed over, in order. -/
def offered (calls : List Call) : List (List UInt8) := calls.filterMap Call.bytes?

/-- The registry after a call. One that fails leaves it as it was. -/
def perform (r : Registry) : Call → Registry
  | .getOrCompile name bytes =>
    match r.getOrCompile name bytes with
    | .ok (next, _) => next
    | .error _ => r
  | .loadFile files path =>
    match r.loadFile files path with
    | .ok (next, _) => next
    | .error _ => r
  | .clear => empty

/-- The registry after calls, begun with nothing in it. -/
def after (calls : List Call) : Registry := calls.foldl perform empty

/-- The listed modules have names and digests of their own, are those of the table of digests, and
were compiled under their names from some of the bytes. -/
structure WF (r : Registry) (sources : List (List UInt8)) : Prop where
  names : (r.modules.map (·.name)).Nodup
  digests : ∀ c ∈ r.modules, ∀ d ∈ r.modules, c.digest = d.digest → c = d
  entries : ∀ {digest c}, (digest, c) ∈ r.byDigest ↔ c ∈ r.modules ∧ c.digest = digest
  compiled : ∀ c ∈ r.modules, ∃ bytes ∈ sources, Compiled.compile? c.name bytes = some c

/-! ## Compiling -/

/-- What bytes compile to has their digest, and the shape that the module in them has under the
name. -/
theorem compile_eq_some {name : String} {bytes : List UInt8} {c : Compiled} :
    Compiled.compile? name bytes = some c ↔
      ∃ m, Wasm.Module.ofBytes? bytes = some m ∧ m.isValid = true ∧
        c = ⟨name, Digest.sha256 bytes, m, m.shape name (Wasm.Binary.localNames bytes)⟩ := by
  simp only [Compiled.compile?, bind, Option.bind_eq_some_iff]
  refine exists_congr fun m => and_congr_right fun _ => ?_
  by_cases hv : m.isValid = true
  · rw [if_pos hv]
    exact ⟨fun h => ⟨hv, (Option.some.inj h).symm⟩, fun h => by rw [h.2]; rfl⟩
  · rw [if_neg hv]
    exact ⟨fun h => (by cases h), fun h => absurd h.1 hv⟩

theorem name_of_compile {name : String} {bytes : List UInt8} {c : Compiled}
    (h : Compiled.compile? name bytes = some c) : c.name = name := by
  obtain ⟨m, -, -, rfl⟩ := compile_eq_some.1 h
  rfl

theorem digest_of_compile {name : String} {bytes : List UInt8} {c : Compiled}
    (h : Compiled.compile? name bytes = some c) : c.digest = Digest.sha256 bytes := by
  obtain ⟨m, -, -, rfl⟩ := compile_eq_some.1 h
  rfl

/-- Whether bytes can be compiled does not depend on the name. -/
theorem isSome_compile (name name' : String) (bytes : List UInt8) :
    (Compiled.compile? name bytes).isSome = (Compiled.compile? name' bytes).isSome := by
  simp only [Compiled.compile?]
  cases Wasm.Module.ofBytes? bytes with
  | none => rfl
  | some m =>
    simp only [bind, Option.bind]
    split <;> rfl

/-! ## Placing -/

theorem map_name_place (c : Compiled) (modules : List Compiled) :
    (place c modules).map (·.name) =
      if c.name ∈ modules.map (·.name) then modules.map (·.name)
      else modules.map (·.name) ++ [c.name] := by
  induction modules with
  | nil => rfl
  | cons d rest ih =>
    by_cases h : d.name = c.name
    · simp [place, h]
    · simp only [place, if_neg h, List.map_cons, ih, List.mem_cons, Ne.symm h, false_or]
      split <;> rfl

theorem mem_place {c : Compiled} {modules : List Compiled}
    (h : (modules.map (·.name)).Nodup) {d : Compiled} :
    d ∈ place c modules ↔ d = c ∨ d ∈ modules ∧ d.name ≠ c.name := by
  induction modules with
  | nil => simp [place]
  | cons e rest ih =>
    rw [List.map_cons, List.nodup_cons] at h
    by_cases he : e.name = c.name
    · rw [place, if_pos he, List.mem_cons, List.mem_cons]
      refine or_congr_right ⟨fun hd => ⟨.inr hd, fun hn => h.1 ?_⟩, fun hd => ?_⟩
      · exact List.mem_map.2 ⟨d, hd, hn.trans he.symm⟩
      · rcases hd with ⟨rfl | hd, hn⟩
        · exact absurd he hn
        · exact hd
    · rw [place, if_neg he, List.mem_cons, ih h.2, List.mem_cons]
      constructor
      · rintro (rfl | rfl | ⟨hd, hn⟩)
        · exact .inr ⟨.inl rfl, he⟩
        · exact .inl rfl
        · exact .inr ⟨.inr hd, hn⟩
      · rintro (rfl | ⟨rfl | hd, hn⟩)
        · exact .inr (.inl rfl)
        · exact .inl rfl
        · exact .inr (.inr ⟨hd, hn⟩)

/-! ## What every registry keeps -/

namespace WF

variable {r : Registry} {sources : List (List UInt8)}

theorem empty (sources : List (List UInt8)) : WF Registry.empty sources where
  names := .nil
  digests := by simp [Registry.empty]
  entries := by simp [Registry.empty]
  compiled := by simp [Registry.empty]

theorem mono (h : WF r sources) {more : List (List UInt8)} (hs : sources ⊆ more) : WF r more where
  names := h.names
  digests := h.digests
  entries := h.entries
  compiled c hc := by
    obtain ⟨bytes, hb, hc⟩ := h.compiled c hc
    exact ⟨bytes, hs hb, hc⟩

theorem eq_of_name (h : WF r sources) {c d : Compiled} (hc : c ∈ r.modules) (hd : d ∈ r.modules)
    (hn : c.name = d.name) : c = d :=
  List.inj_on_of_nodup_map h.names hc hd hn

theorem find?_eq_some (h : WF r sources) {name : String} {c : Compiled} :
    r.find? name = some c ↔ c ∈ r.modules ∧ c.name = name := by
  have found {d : Compiled} (hd : r.find? name = some d) : d ∈ r.modules ∧ d.name = name :=
    ⟨List.mem_of_find?_eq_some hd, by simpa using List.find?_some hd⟩
  refine ⟨found, fun ⟨hc, hn⟩ => ?_⟩
  cases hf : r.find? name with
  | none => exact absurd hn (by simpa using List.find?_eq_none.1 hf c hc)
  | some d => rw [h.eq_of_name (found hf).1 hc ((found hf).2.trans hn.symm)]

theorem lookup_eq_some (h : WF r sources) {digest : Digest.State} {c : Compiled} :
    r.byDigest.lookup digest = some c ↔ c ∈ r.modules ∧ c.digest = digest := by
  have found {d : Compiled} (hd : r.byDigest.lookup digest = some d) :
      d ∈ r.modules ∧ d.digest = digest := by
    obtain ⟨before, rest, hl, -⟩ := List.lookup_eq_some_iff.1 hd
    exact h.entries.1 (by simp [hl])
  refine ⟨found, fun hc => ?_⟩
  cases hf : r.byDigest.lookup digest with
  | none => simpa using List.lookup_eq_none_iff.1 hf _ (h.entries.2 hc)
  | some d => rw [h.digests d (found hf).1 c hc.1 ((found hf).2.trans hc.2.symm)]

theorem lookup_eq_none (h : WF r sources) {digest : Digest.State} :
    r.byDigest.lookup digest = none ↔ ∀ c ∈ r.modules, c.digest ≠ digest := by
  rw [Option.eq_none_iff_forall_ne_some]
  refine ⟨fun hl c hc hd => hl c (h.lookup_eq_some.2 ⟨hc, hd⟩), fun hm c hl => ?_⟩
  obtain ⟨hc, hd⟩ := h.lookup_eq_some.1 hl
  exact hm c hc hd

/-- Registering a module takes the entries of its name out of the table of digests. -/
theorem mem_byDigest_insert (h : WF r sources) {c : Compiled}
    {entry : Digest.State × Compiled} :
    entry ∈ (r.insert c).byDigest ↔
      entry ∈ r.byDigest ∧ entry.2.name ≠ c.name ∨ entry = (c.digest, c) := by
  obtain ⟨digest, d⟩ := entry
  rw [Registry.insert, List.mem_append, List.mem_singleton]
  refine or_congr_left ?_
  cases hf : r.find? c.name with
  | none =>
    refine ⟨fun hm => ⟨hm, ?_⟩, fun hm => hm.1⟩
    simpa using List.find?_eq_none.1 hf d (h.entries.1 hm).1
  | some old =>
    obtain ⟨ho, hn⟩ := h.find?_eq_some.1 hf
    simp only [List.mem_filter, decide_eq_true_eq]
    refine and_congr_right fun hm => not_congr ?_
    obtain ⟨hd, he⟩ := h.entries.1 hm
    constructor
    · intro hold
      rw [h.digests d hd old ho (he.trans hold), hn]
    · intro hname
      rw [← he, h.eq_of_name hd ho (hname.trans hn.symm)]

/-- Registering a module whose digest no listed module has. -/
theorem insert (h : WF r sources) {c : Compiled} (new : ∀ d ∈ r.modules, d.digest ≠ c.digest)
    (source : ∃ bytes ∈ sources, Compiled.compile? c.name bytes = some c) :
    WF (r.insert c) sources where
  names := by
    simp only [Registry.insert, map_name_place]
    split
    · exact h.names
    · rename_i hc
      rw [List.nodup_append]
      refine ⟨h.names, List.nodup_singleton _, fun a ha b hb => ?_⟩
      rw [List.mem_singleton.1 hb]
      exact fun he => hc (he ▸ ha)
  digests := by
    simp only [Registry.insert, mem_place h.names]
    rintro a (rfl | ⟨ha, -⟩) b (rfl | ⟨hb, -⟩) he
    · rfl
    · exact absurd he.symm (new b hb)
    · exact absurd he (new a ha)
    · exact h.digests a ha b hb he
  entries := by
    intro digest d
    rw [h.mem_byDigest_insert, h.entries, Registry.insert, mem_place h.names, Prod.mk.injEq]
    constructor
    · rintro (⟨⟨hd, rfl⟩, hn⟩ | ⟨rfl, rfl⟩)
      · exact ⟨.inr ⟨hd, hn⟩, rfl⟩
      · exact ⟨.inl rfl, rfl⟩
    · rintro ⟨rfl | ⟨hd, hn⟩, rfl⟩
      · exact .inr ⟨rfl, rfl⟩
      · exact .inl ⟨⟨hd, rfl⟩, hn⟩
  compiled d hd := by
    rcases (mem_place h.names).1 hd with rfl | ⟨hd, -⟩
    · exact source
    · exact h.compiled d hd

/-- Offering bytes keeps everything, whether they are compiled or known already. -/
theorem getOrCompile (h : WF r sources) {name : String} {bytes : List UInt8} {next : Registry}
    {c : Compiled} (hg : r.getOrCompile name bytes = .ok (next, c)) :
    WF next (sources ++ [bytes]) := by
  have h : WF r (sources ++ [bytes]) := h.mono (List.subset_append_left _ _)
  rw [Registry.getOrCompile] at hg
  split at hg
  · cases hg
    exact h
  · rename_i hl
    rw [compileModule] at hg
    split at hg
    · rename_i d hd
      split at hd
      · cases hg
        cases hd
        rename_i hc
        refine h.insert ?_ ⟨bytes, by simp, by rw [name_of_compile hc, hc]⟩
        rw [digest_of_compile hc]
        exact h.lookup_eq_none.1 hl
      · cases hd
    · cases hg

/-- A call keeps everything. -/
theorem perform (h : WF r sources) (call : Call) :
    WF (r.perform call) (sources ++ call.bytes?.toList) := by
  cases call with
  | getOrCompile name bytes =>
    simp only [Registry.perform, Call.bytes?, Option.toList_some]
    split
    · rename_i hg
      exact h.getOrCompile hg
    · exact h.mono (List.subset_append_left _ _)
  | loadFile files path =>
    simp only [Registry.perform, Call.bytes?]
    split
    · rename_i hl
      rw [Registry.loadFile] at hl
      split at hl
      · cases hl
      · rename_i content hr
        rw [hr]
        split at hl
        · cases hl
        · exact h.getOrCompile hl
    · exact h.mono (List.subset_append_left _ _)
  | clear => exact .empty _

end WF

section

variable {r : Registry} {sources : List (List UInt8)} {name : String} {bytes : List UInt8}

/-- Bytes that are listed are not compiled again. -/
theorem getOrCompile_known (name : String) (h : WF r sources) {known : Compiled}
    (hk : known ∈ r.modules) (hd : known.digest = Digest.sha256 bytes) :
    r.getOrCompile name bytes = .ok (r, known) := by
  rw [getOrCompile, h.lookup_eq_some.2 ⟨hk, hd⟩]

theorem getOrCompile_new (h : WF r sources) (new : ∀ d ∈ r.modules, d.digest ≠ Digest.sha256 bytes)
    {c : Compiled} (hc : Compiled.compile? name bytes = some c) :
    r.getOrCompile name bytes = .ok (r.insert c, c) := by
  rw [getOrCompile, h.lookup_eq_none.2 new]
  simp only [compileModule, hc]

theorem getOrCompile_invalid (h : WF r sources)
    (new : ∀ d ∈ r.modules, d.digest ≠ Digest.sha256 bytes)
    (hc : Compiled.compile? name bytes = none) :
    r.getOrCompile name bytes = .error (.invalid name) := by
  rw [getOrCompile, h.lookup_eq_none.2 new]
  simp only [compileModule, hc]

end

/-- **Every registry is well formed.** After any calls, with the bytes they handed over. -/
theorem wf_after (calls : List Call) : WF (after calls) (offered calls) := by
  induction calls using List.reverseRecOn with
  | nil => exact .empty _
  | append_singleton calls call ih =>
    rw [after, List.foldl_append, offered, List.filterMap_append]
    have := ih.perform call
    cases hb : call.bytes? <;> simpa [after, offered, hb] using this

end Registry

end ScriptHost

import ScriptHost.Proofs.Registry.History

/-!
# The name of bytes that are known

The table of digests answers before a name is looked at. So bytes that are listed already come
back under the name they were listed with, whatever name they are offered under now, and nothing
is listed under the new one. Everywhere else what comes back is what compiling gives
(`agrees_iff_not_elsewhere`): the bytes have to be listed under no other name.
-/

namespace ScriptHost.Registry

open Wasm (Compiled HostFunction Import)

/-- Bytes of the digest are listed under no other name. -/
def NotElsewhere (r : Registry) (name : String) (digest : Digest.State) : Prop :=
  ∀ c ∈ r.modules, c.digest = digest → c.name = name

/-- A module of the digest is found under the name. -/
def Finds (r : Registry) (name : String) (digest : Digest.State) : Prop :=
  ∃ c, r.find? name = some c ∧ c.digest = digest

/-- What offering bytes gives is called and shaped as the module that they compile to, and is found
under the name from then on. -/
def Agrees (r : Registry) (name : String) (bytes : List UInt8) (c : Compiled) : Prop :=
  ∃ next m, r.getOrCompile name bytes = .ok (next, m) ∧
    m.name = c.name ∧ m.digest = c.digest ∧ m.shape = c.shape ∧ next.Finds name c.digest

/-- What a module exports can be imported under the name, with the listed modules on offer. -/
def Importable (r : Registry) (name : String) (m : Compiled) : Prop :=
  ∀ i : Import, i.module = name → m.hasExport i.name → Compiled.resolves r.modules i

/-- Every export has the name of a function of the host, should the name be that of the host. -/
def Unshadowed (name : String) (m : Compiled) : Prop :=
  name = HostFunction.hostModule →
    ∀ e ∈ m.module.exports, HostFunction.own.any fun f => f.1 = e.name

section

variable {r : Registry} {sources : List (List UInt8)} {name : String} {bytes : List UInt8}

/-- Bytes that compile are always answered, with a module that is listed from then on and that they
compile to under the name it is listed with. -/
theorem getOrCompile_eq_ok (h : WF r sources)
    (distinct : ∀ source ∈ sources, Digest.sha256 source = Digest.sha256 bytes → source = bytes)
    {c : Compiled} (hc : Compiled.compile? name bytes = some c) :
    ∃ next m, r.getOrCompile name bytes = .ok (next, m) ∧ WF next (sources ++ [bytes]) ∧
      Compiled.compile? m.name bytes = some m ∧ next.find? m.name = some m ∧
      (r.NotElsewhere name c.digest ↔ m.name = name) := by
  by_cases known : ∃ d ∈ r.modules, d.digest = Digest.sha256 bytes
  · obtain ⟨d, hd, he⟩ := known
    have hg := getOrCompile_known name h hd he
    refine ⟨r, d, hg, h.getOrCompile hg, ?_, h.find?_eq_some.2 ⟨hd, rfl⟩, ?_⟩
    · obtain ⟨source, hs, hcs⟩ := h.compiled d hd
      rw [← distinct source hs ((digest_of_compile hcs).symm.trans he), hcs]
    · rw [digest_of_compile hc]
      constructor
      · intro hn
        exact hn d hd he
      · rintro rfl d' hd' he'
        rw [h.digests d' hd' d hd (he'.trans he.symm)]
  · push Not at known
    have hg := getOrCompile_new h known hc
    have hn := name_of_compile hc
    have hw := h.getOrCompile hg
    refine ⟨r.insert c, c, hg, hw, hn ▸ hc, hw.find?_eq_some.2 ⟨?_, rfl⟩, ?_⟩
    · exact (mem_place h.names).2 (.inl rfl)
    · refine ⟨fun _ => hn, fun _ d hd he => ?_⟩
      exact absurd (he.trans (digest_of_compile hc)) (known d hd)

/-- A listed module can be imported from, unless its name is the host's and not all its exports
are functions of the host. -/
theorem importable_iff {m : Compiled} (hm : m ∈ r.modules) :
    r.Importable m.name m ↔ Unshadowed m.name m := by
  constructor
  · intro hi hn e he
    have := hi ⟨m.name, e.name, default⟩ rfl (List.any_eq_true.2 ⟨e, he, by simp⟩)
    simpa only [Compiled.resolves, if_pos hn] using this
  · rintro hu i hi he
    rw [Compiled.resolves]
    split
    · rename_i hn
      obtain ⟨e, hm, hn'⟩ := List.any_eq_true.1 he
      rw [← decide_eq_true_iff.1 hn']
      exact hu (hi.symm.trans hn) e hm
    · split
      · rfl
      · exact List.any_eq_true.2 ⟨m, hm, by simpa [hi] using he⟩

end

/-! ## After any calls -/

/-- **Known bytes keep their name.** After any calls, bytes that compile are answered as compiling
them answers, and found under their name, if and only if they are listed under no other name. A
file that holds them can always be loaded; it is found and can be imported from under its stem on
the same condition, unless the stem is the host's name and hides an export. -/
theorem agrees_iff_not_elsewhere (calls : List Call) {name : String} {bytes : List UInt8}
    {c : Compiled} (hc : Compiled.compile? name bytes = some c)
    (distinct : ∀ source ∈ offered calls,
      Digest.sha256 source = Digest.sha256 bytes → source = bytes) :
    ((after calls).Agrees name bytes c ↔ (after calls).NotElsewhere name c.digest) ∧
      ∀ files path content, files.read path = .ok content → content.toList = bytes →
        Path.stem? path = some name →
        ∃ next m, (after calls).loadFile files path = .ok (next, m) ∧ m.digest = c.digest ∧
          (next.Finds name c.digest ∧ next.Importable name m ↔
            (after calls).NotElsewhere name c.digest ∧ Unshadowed name m) := by
  obtain ⟨next, m, hg, hw, hm, hf, hn⟩ := getOrCompile_eq_ok (wf_after calls) distinct hc
  have hd : m.digest = c.digest := (digest_of_compile hm).trans (digest_of_compile hc).symm
  have hl := (hw.find?_eq_some.1 hf).1
  -- what is found under the name with this digest can only be the module that came back
  have finds : next.Finds name c.digest ↔ m.name = name := by
    constructor
    · rintro ⟨d, hfound, he⟩
      obtain ⟨hmem, rfl⟩ := hw.find?_eq_some.1 hfound
      rw [hw.digests d hmem m hl (he.trans hd.symm)]
    · rintro rfl
      exact ⟨m, hf, hd⟩
  constructor
  · rw [hn]
    constructor
    · rintro ⟨next', m', hg', -, -, -, hfinds⟩
      cases hg.symm.trans hg'
      exact finds.1 hfinds
    · intro hname
      have he : m = c := by
        rw [hname] at hm
        exact Option.some.inj (hm.symm.trans hc)
      exact ⟨next, m, hg, by rw [he], hd, by rw [he], finds.2 hname⟩
  · intro files path content hr hb hs
    refine ⟨next, m, ?_, hd, ?_⟩
    · rw [loadFile, hr]
      simp only [hs, hb, hg]
    · rw [finds, hn]
      refine and_congr_right ?_
      rintro rfl
      exact importable_iff hl

/-- The shortest binary of a module. -/
def emptyBinary : List UInt8 := [0x00, 0x61, 0x73, 0x6d, 0x01, 0x00, 0x00, 0x00]

theorem isSome_compile_emptyBinary (name : String) :
    (Compiled.compile? name emptyBinary).isSome := by
  rw [isSome_compile name ""]
  decide

/-- The registry that the shortest binary was offered to once. -/
theorem after_emptyBinary {name : String} {c : Compiled}
    (hc : Compiled.compile? name emptyBinary = some c) :
    after [.getOrCompile name emptyBinary] = ⟨[c], [(c.digest, c)]⟩ := by
  have hnew := getOrCompile_new (.empty []) (by simp [empty]) hc
  simp only [after, List.foldl_cons, List.foldl_nil, perform, hnew]
  rfl

theorem agrees_emptyBinary :
    ∃ c, Compiled.compile? "geometry" emptyBinary = some c ∧
      (after [.getOrCompile "geometry" emptyBinary]).Agrees "geometry" emptyBinary c := by
  obtain ⟨c, hc⟩ := Option.isSome_iff_exists.1 (isSome_compile_emptyBinary "geometry")
  have distinct : ∀ source ∈ offered [.getOrCompile "geometry" emptyBinary],
      Digest.sha256 source = Digest.sha256 emptyBinary → source = emptyBinary := by
    intro source hs _
    simpa [offered, Call.bytes?] using hs
  refine ⟨c, hc, (agrees_iff_not_elsewhere _ hc distinct).1.2 ?_⟩
  rw [after_emptyBinary hc]
  intro d hd _
  rw [List.mem_singleton.1 hd, name_of_compile hc]

/-- Offered under a second name, the bytes come back under the first. -/
theorem not_agrees_second_name :
    ∃ c, Compiled.compile? "solids" emptyBinary = some c ∧
      ¬ (after [.getOrCompile "geometry" emptyBinary]).Agrees "solids" emptyBinary c := by
  obtain ⟨first, hfirst⟩ := Option.isSome_iff_exists.1 (isSome_compile_emptyBinary "geometry")
  obtain ⟨c, hc⟩ := Option.isSome_iff_exists.1 (isSome_compile_emptyBinary "solids")
  refine ⟨c, hc, ?_⟩
  have hw := wf_after [.getOrCompile "geometry" emptyBinary]
  rw [after_emptyBinary hfirst] at hw ⊢
  rintro ⟨next, m, hg, hn, -⟩
  rw [getOrCompile_known _ hw (List.mem_singleton_self first) (digest_of_compile hfirst)] at hg
  cases hg
  rw [name_of_compile hfirst, name_of_compile hc] at hn
  exact absurd hn (by decide)

end ScriptHost.Registry

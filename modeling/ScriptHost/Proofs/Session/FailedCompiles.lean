import ScriptHost.Proofs.Files
import ScriptHost.Proofs.Registry.Names
import ScriptHost.Proofs.Registry.Slots
import ScriptHost.Proofs.Session.Endings
import ScriptHost.Proofs.Text.Utf8

/-!
# The registry after a failed compilation

Before a script is compiled, the references of the settings are loaded one after the other. Each is
registered as it is loaded, and stays registered whatever fails then: a later reference, or the
script itself (`Registry.Loads`). Nothing else comes of a compilation that fails, and nothing is taken
back (`Session.compileFailed_loads`). So the registry is what it was if none of the references that
could be loaded was new to it.
-/

namespace ScriptHost

open Wasm (Compiled)

/-! ## Loading references -/

namespace Registry

/-- Files that are loaded one after the other, each of them with success: the modules in them, and
the registry afterwards. -/
inductive Loads (files : Files) :
    Registry → List String → List Compiled → Registry → Prop where
  | nil (r : Registry) : Loads files r [] [] r
  | cons {r next last : Registry} {path : String} {paths : List String} {c : Compiled}
    {modules : List Compiled} (h : r.loadFile files path = .ok (next, c))
    (hs : Loads files next paths modules last) :
    Loads files r (path :: paths) (c :: modules) last

variable {files : Files} {r next last : Registry} {path : String} {paths : List String}
  {c : Compiled} {modules : List Compiled}

/-- A file that is loaded is known by its bytes, or it is compiled under its stem and registered. -/
theorem loadFile_eq_ok (h : r.loadFile files path = .ok (next, c)) :
    ∃ content name, files.read path = .ok content ∧ Path.stem? path = some name ∧
      (r.byDigest.lookup (Digest.sha256 content.toList) = some c ∧ next = r ∨
        r.byDigest.lookup (Digest.sha256 content.toList) = none ∧
          Compiled.compile? name content.toList = some c ∧ next = r.insert c) := by
  unfold loadFile at h
  split at h
  · cases h
  rename_i content hread
  split at h
  · cases h
  rename_i name hstem
  refine ⟨content, name, hread, hstem, ?_⟩
  unfold getOrCompile compileModule at h
  cases hknown : r.byDigest.lookup (Digest.sha256 content.toList) with
  | some known =>
    rw [hknown] at h
    cases h
    exact .inl ⟨rfl, rfl⟩
  | none =>
    rw [hknown] at h
    dsimp only at h
    cases hc : Compiled.compile? name content.toList with
    | none =>
      rw [hc] at h
      cases h
    | some compiled =>
      rw [hc] at h
      cases h
      exact .inr ⟨rfl, rfl, rfl⟩

/-- A module keeps its slot while one of another name is registered. -/
theorem getElem?_insert (r : Registry) {c d : Compiled} {i : Nat} (hd : r.modules[i]? = some d)
    (hne : d.name ≠ c.name) : (r.insert c).modules[i]? = some d := by
  show (place c r.modules)[i]? = some d
  obtain ⟨j, hj, hname, he⟩ | ⟨-, he⟩ := place_cases c r.modules
  · have hij : j ≠ i := by
      rintro rfl
      rw [List.getElem?_eq_getElem hj] at hd
      cases hd
      exact hne hname
    rw [he, List.getElem?_set_ne hij, hd]
  · obtain ⟨hi, -⟩ := List.getElem?_eq_some_iff.1 hd
    rw [he, List.getElem?_append_left hi, hd]

theorem mem_modules_insert {d : Compiled} (hd : d ∈ (r.insert c).modules) :
    d ∈ r.modules ∨ d = c := by
  replace hd : d ∈ place c r.modules := hd
  obtain ⟨j, -, -, he⟩ | ⟨-, he⟩ := place_cases c r.modules
  · rw [he] at hd
    exact List.mem_or_eq_of_mem_set hd
  · rw [he] at hd
    exact (List.mem_append.1 hd).imp_right List.mem_singleton.1

/-- What loading does to the modules that are listed: only those of the files' own names may be
replaced, and only what the files hold may come in. Files whose bytes are known do nothing. -/
structure Admits (files : Files) (r : Registry) (paths : List String) (last : Registry) : Prop where
  slots : ∀ (i : Nat) (c : Compiled), r.modules[i]? = some c →
    (∀ path ∈ paths, Path.stem? path ≠ some c.name) → last.modules[i]? = some c
  sources : ∀ c ∈ last.modules, c ∈ r.modules ∨ ∃ path ∈ paths, ∃ content name,
    files.read path = .ok content ∧ Path.stem? path = some name ∧
      Compiled.compile? name content.toList = some c
  known : (∀ path ∈ paths, ∀ content, files.read path = .ok content →
    (r.byDigest.lookup (Digest.sha256 content.toList)).isSome) → last = r

namespace Admits

theorem refl (r : Registry) : Admits files r [] r where
  slots _ _ hc _ := hc
  sources _ hc := .inl hc
  known _ := rfl

theorem of_loadFile (h : r.loadFile files path = .ok (next, c)) : Admits files r [path] next := by
  obtain ⟨content, name, hread, hstem, ⟨hknown, rfl⟩ | ⟨hnew, hcompiled, rfl⟩⟩ := loadFile_eq_ok h
  · exact ⟨fun i d hd _ => hd, fun d hd => .inl hd, fun _ => rfl⟩
  · refine ⟨fun i d hd hne => getElem?_insert r hd fun he => ?_, fun d hd => ?_, fun hknown => ?_⟩
    · rw [he, name_of_compile hcompiled] at hne
      exact hne path (List.mem_singleton_self path) hstem
    · refine (mem_modules_insert hd).imp_right ?_
      rintro rfl
      exact ⟨path, List.mem_singleton_self path, content, name, hread, hstem, hcompiled⟩
    · have hsome := hknown path (List.mem_singleton_self path) content hread
      rw [hnew] at hsome
      cases hsome

theorem append {more : List String} (h : Admits files r paths next)
    (h' : Admits files next more last) : Admits files r (paths ++ more) last where
  slots i c hc hne :=
    h'.slots i c (h.slots i c hc fun path hp => hne path (List.mem_append_left _ hp))
      fun path hp => hne path (List.mem_append_right _ hp)
  sources c hc := by
    obtain hc | ⟨path, hp, hpath⟩ := h'.sources c hc
    · refine (h.sources c hc).imp_right ?_
      rintro ⟨path, hp, hpath⟩
      exact ⟨path, List.mem_append_left _ hp, hpath⟩
    · exact .inr ⟨path, List.mem_append_right _ hp, hpath⟩
  known hknown := by
    obtain rfl := h.known fun path hp => hknown path (List.mem_append_left _ hp)
    exact h'.known fun path hp => hknown path (List.mem_append_right _ hp)

end Admits

theorem Loads.admits (h : Loads files r paths modules last) : Admits files r paths last := by
  induction h with
  | nil r => exact .refl r
  | cons h hs ih => exact (Admits.of_loadFile h).append ih

/-- References are loaded up to the first that cannot be. -/
theorem loadAll_cases (r : Registry) (files : Files) (paths : List String) :
    (∃ modules, Loads files r paths modules (r.loadAll files paths).1 ∧
        (r.loadAll files paths).2.2 = .ok modules) ∨
      ∃ loaded path later modules e, paths = loaded ++ path :: later ∧
        Loads files r loaded modules (r.loadAll files paths).1 ∧
        (r.loadAll files paths).1.loadFile files path = .error e ∧
        (r.loadAll files paths).2.2 = .error (.reference path e) := by
  induction paths generalizing r with
  | nil => exact .inl ⟨[], .nil r, rfl⟩
  | cons path rest ih =>
    rw [loadAll]
    cases h : r.loadFile files path with
    | error e => exact .inr ⟨[], path, rest, [], e, rfl, .nil r, h, rfl⟩
    | ok found =>
      obtain ⟨next, c⟩ := found
      dsimp only
      obtain ⟨modules, hloads, hok⟩ | ⟨loaded, stopped, later, modules, e, rfl, hloads, hfails,
        herror⟩ := ih next
      · rw [hok]
        exact .inl ⟨c :: modules, .cons h hloads, rfl⟩
      · rw [herror]
        exact .inr ⟨path :: loaded, stopped, later, c :: modules, e, rfl, .cons h hloads, hfails,
          rfl⟩

end Registry

/-! ## Compilations that fail -/

/-- Why a compilation of a script fails, and which references were loaded before. None if its source
cannot be read, those before the first that cannot be loaded, or all of them if the source does not
compile with the modules that it may import from: what was loaded, or without any references all that
are registered. -/
inductive CompileFails (config : Config) (files : Files) (v : Invocation) (r : Registry) :
    List String → Registry → CompileError → Prop where
  | unreadable {fault : Files.Fault} (h : files.readText v.path = .error fault) :
    CompileFails config files v r [] r (.unreadable v.path fault)
  | reference {last : Registry} {source path : String} {loaded later : List String}
    {modules : List Compiled} {e : ModuleError} (h : files.readText v.path = .ok source)
    (hpaths : config.references = loaded ++ path :: later)
    (hloads : r.Loads files loaded modules last) (he : last.loadFile files path = .error e) :
    CompileFails config files v r loaded last (.reference path e)
  | source {last : Registry} {source : String} {modules : List Compiled} {e : CompileError}
    (h : files.readText v.path = .ok source)
    (hloads : r.Loads files config.references modules last)
    (he : compileSource [config.hostDefine] v.engine v.path source
      (if config.references = [] then r.modules else modules) = .error e) :
    CompileFails config files v r config.references last e

namespace CompileFails

variable {config : Config} {files : Files} {v : Invocation} {r last : Registry}
  {loaded : List String} {e : CompileError}

/-- What was loaded comes first among the references, and in their order. -/
theorem loads (h : CompileFails config files v r loaded last e) :
    ∃ later modules, config.references = loaded ++ later ∧ r.Loads files loaded modules last := by
  cases h with
  | unreadable h => exact ⟨config.references, [], rfl, .nil r⟩
  | reference h hpaths hloads he => exact ⟨_, _, hpaths, hloads⟩
  | source h hloads he => exact ⟨[], _, (List.append_nil _).symm, hloads⟩

end CompileFails

/-- A compilation that fails has come that far, and reports why. -/
theorem Registry.compileScript_error {config : Config} {files : Files} {v : Invocation}
    {r : Registry} {e : CompileError}
    (h : (r.compileScript files config.references [config.hostDefine] v).2.2 = .error e) :
    ∃ loaded, CompileFails config files v r loaded
      (r.compileScript files config.references [config.hostDefine] v).1 e := by
  revert h
  rw [compileScript]
  cases hread : files.readText v.path with
  | error fault =>
    rintro ⟨⟩
    exact ⟨[], .unreadable hread⟩
  | ok source =>
    have compiles {references : List Compiled}
        (h : (do
          let references ← Except.ok references
          return (← compileSource [config.hostDefine] v.engine v.path source references,
            references) : Except CompileError (Compiled × List Compiled)) = .error e) :
        compileSource [config.hostDefine] v.engine v.path source references = .error e := by
      cases hc : compileSource [config.hostDefine] v.engine v.path source references with
      | error e' =>
        simp only [bind, Except.bind, hc] at h
        cases h
        rfl
      | ok c =>
        simp only [bind, Except.bind, hc] at h
        cases h
    dsimp only
    by_cases hpaths : config.references = []
    · rw [references, if_pos hpaths]
      intro h
      have hloads : r.Loads files config.references [] r := by
        rw [hpaths]
        exact .nil r
      refine ⟨_, .source hread hloads ?_⟩
      rw [if_pos hpaths]
      exact compiles h
    · rw [references, if_neg hpaths]
      obtain ⟨modules, hloads, hok⟩ | ⟨loaded, path, later, modules, e', hsplit, hloads, hfails,
        herror⟩ := r.loadAll_cases files config.references
      · rw [hok]
        intro h
        refine ⟨_, .source hread hloads ?_⟩
        rw [if_neg hpaths]
        exact compiles h
      · rw [herror]
        rintro ⟨⟩
        exact ⟨loaded, .reference hread hsplit hloads hfails⟩

/-- A module that is there does not fail to compile. -/
theorem outcome_runInterface (c : Compiled) (interface : Interface) (handles : Handles)
    (references : List Compiled) (sink : Nat) :
    (runInterface c interface handles references sink).outcome ≠ .compileFailed := by
  unfold runInterface
  cases interface with
  | command =>
    dsimp only
    unfold runCommand
    split
    · nofun
    · split <;> nofun
  | eventHandler =>
    dsimp only
    unfold runEventHandler
    dsimp only
    split
    · nofun
    · split <;> nofun
  | availability => nofun

namespace Session

/-- A script that is compiled works on the registry of the session alone. -/
theorem dispatch_source (config : Config) (s : Session) (files : Files) {job : Job}
    (engine : job.invocation.engine = .wat ∨ job.invocation.engine = .wast) :
    (dispatcher config).dispatch s files job =
      let (registry, e) := s.registry.runSource files config.references [config.hostDefine]
        job.invocation job.sink
      ({ s with registry }, { job with report := e.report }, e.outcome,
        e.effects ++ [.log e.outcome.event]) := by
  have hrun : (handler config job.invocation.engine).run s files job.invocation job.sink =
      let (registry, e) := s.registry.runSource files config.references [config.hostDefine]
        job.invocation job.sink
      ({ s with registry }, .finished e) := by
    rcases engine with h | h <;> rw [h] <;> rfl
  exact dispatch_eq hrun

/-- **Failed compilations.** A script that does not compile has loaded some of the references of the
settings, in their order and up to the first that cannot be loaded, and these stay registered; its
report says why it does not compile. Nothing else comes of it: other modules keep their slots, the
script is not registered, and the session is what it was if all that was loaded was known before. -/
theorem compileFailed_loads (config : Config) (s : Session) (files : Files) (job : Job)
    (engine : job.invocation.engine = .wat ∨ job.invocation.engine = .wast)
    (failed : ((dispatcher config).dispatch s files job).2.2.1 = .compileFailed) :
    ∃ loaded last e,
      ((dispatcher config).dispatch s files job).1 = { s with registry := last } ∧
      ((dispatcher config).dispatch s files job).2.1.report.diagnostics.runtime =
        some (Text.Newline.normalize e.message) ∧
      CompileFails config files job.invocation s.registry loaded last e ∧
      (∃ later modules, config.references = loaded ++ later ∧
        s.registry.Loads files loaded modules last) ∧
      Registry.Admits files s.registry loaded last := by
  rw [dispatch_source config s files engine] at failed ⊢
  dsimp only at failed ⊢
  have hcompiled := @Registry.compileScript_error config files job.invocation s.registry
  rw [Registry.runSource] at failed ⊢
  generalize s.registry.compileScript files config.references [config.hostDefine] job.invocation =
    compiled at hcompiled failed ⊢
  obtain ⟨last, events, e | ⟨c, references⟩⟩ := compiled
  · obtain ⟨loaded, hfails⟩ := hcompiled rfl
    obtain ⟨later, modules, hpaths, hloads⟩ := hfails.loads
    exact ⟨loaded, last, e, rfl, rfl, hfails, ⟨later, modules, hpaths, hloads⟩, hloads.admits⟩
  · exact absurd failed (outcome_runInterface c _ _ references _)

/-! ## A reference that stays -/

/-- Settings with two references, of which the second is missing from the files. -/
def halfConfig : Config := { references := ["lib.wasm", "missing.wasm"] }

/-- The first of the references, and a script. -/
def halfFiles : Files where
  nodes := [(["."], .directory), ([".", "lib.wasm"], .file ⟨Registry.emptyBinary.toArray⟩),
    ([".", "tool.wat"], .file "(module)".toUTF8)]

def halfJob : Job where
  invocation := { engine := .wat, path := "tool.wat" }

theorem loadFile_lib {c : Compiled} (hc : Compiled.compile? "lib" Registry.emptyBinary = some c) :
    Registry.loadFile {} halfFiles "lib.wasm" = .ok (Registry.insert {} c, c) := by
  have hresolve : halfFiles.resolve "lib.wasm" = .ok [".", "lib.wasm"] :=
    Files.resolve_of_name (by decide +kernel) (by decide +kernel) rfl
  have hread : halfFiles.read "lib.wasm" = .ok ⟨Registry.emptyBinary.toArray⟩ := by
    simp only [Files.read, hresolve, bind, Except.bind]
    rfl
  have hstem : Path.stem? "lib.wasm" = some "lib" := by decide +kernel
  have hbytes : (ByteArray.mk Registry.emptyBinary.toArray).toList = Registry.emptyBinary := by
    rw [ByteArray.toList, Text.toList_loop_eq]
    rfl
  rw [Registry.loadFile, hread]
  dsimp only
  rw [hstem]
  dsimp only
  rw [hbytes]
  exact Registry.getOrCompile_new (.empty []) (by simp [Registry.empty]) hc

theorem loadFile_missing (r : Registry) :
    r.loadFile halfFiles "missing.wasm" = .error (.unreadable "missing.wasm" .notFound) := by
  have hresolve : halfFiles.resolve "missing.wasm" = .ok [".", "missing.wasm"] :=
    Files.resolve_of_name (by decide +kernel) (by decide +kernel) rfl
  have hread : halfFiles.read "missing.wasm" = .error .notFound := by
    simp only [Files.read, hresolve, bind, Except.bind]
    rfl
  rw [Registry.loadFile, hread]

/-- The script does not compile, and the first reference is registered. -/
theorem dispatch_half {c : Compiled}
    (hc : Compiled.compile? "lib" Registry.emptyBinary = some c) :
    ((dispatcher halfConfig).dispatch {} halfFiles halfJob).2.2.1 = .compileFailed ∧
      ((dispatcher halfConfig).dispatch {} halfFiles halfJob).1.registry.modules = [c] := by
  have hsource : halfFiles.readText "tool.wat" = .ok "(module)" :=
    Files.Holds.readText ⟨by decide +kernel, by decide +kernel, rfl, rfl⟩
  have hcompiled : ∃ events e, Registry.compileScript {} halfFiles halfConfig.references
      [halfConfig.hostDefine] halfJob.invocation = (Registry.insert {} c, events, .error e) := by
    rw [Registry.compileScript, show halfJob.invocation.path = "tool.wat" from rfl, hsource]
    dsimp only
    rw [Registry.references, if_neg (by decide), show halfConfig.references =
      ["lib.wasm", "missing.wasm"] from rfl, Registry.loadAll, loadFile_lib hc]
    dsimp only
    rw [Registry.loadAll, loadFile_missing]
    exact ⟨_, _, rfl⟩
  obtain ⟨events, e, hcompiled⟩ := hcompiled
  rw [dispatch_source halfConfig {} halfFiles (.inl rfl), Registry.runSource, hcompiled]
  exact ⟨rfl, rfl⟩

/-- Only a reference has come in, and not the script. -/
theorem compileFailed_loads_half :
    ((dispatcher halfConfig).dispatch {} halfFiles halfJob).2.2.1 = .compileFailed ∧
      ∃ loaded last e,
        ((dispatcher halfConfig).dispatch {} halfFiles halfJob).1 = { registry := last } ∧
        CompileFails halfConfig halfFiles halfJob.invocation {} loaded last e ∧
        ∀ c ∈ last.modules, c.name ≠ "tool" := by
  obtain ⟨library, hlibrary⟩ :=
    Option.isSome_iff_exists.1 (Registry.isSome_compile_emptyBinary "lib")
  have hfailed := (dispatch_half hlibrary).1
  obtain ⟨loaded, last, e, hstate, -, hfails, ⟨later, modules, hpaths, -⟩, hadmits⟩ :=
    compileFailed_loads halfConfig {} halfFiles halfJob (.inl rfl) hfailed
  refine ⟨hfailed, loaded, last, e, hstate, hfails, fun c hc hname => ?_⟩
  obtain hc | ⟨path, hp, content, name, -, hstem, hcompiled⟩ := hadmits.sources c hc
  · exact absurd hc List.not_mem_nil
  · have hmem : path ∈ halfConfig.references := hpaths ▸ List.mem_append_left later hp
    rw [← Registry.name_of_compile hcompiled, hname] at hstem
    have hstems : ∀ path ∈ halfConfig.references, Path.stem? path ≠ some "tool" := by
      decide +kernel
    exact hstems path hmem hstem

/-- The list of modules is not what it was: the first reference has come in. -/
theorem not_unchanged_half :
    ((dispatcher halfConfig).dispatch {} halfFiles halfJob).2.2.1 = .compileFailed ∧
      ((dispatcher halfConfig).dispatch {} halfFiles halfJob).1.registry.modules ≠
        ({} : Session).registry.modules := by
  obtain ⟨c, hc⟩ := Option.isSome_iff_exists.1 (Registry.isSome_compile_emptyBinary "lib")
  obtain ⟨hfailed, hmodules⟩ := dispatch_half hc
  refine ⟨hfailed, ?_⟩
  rw [hmodules]
  exact List.cons_ne_nil c []

end Session

end ScriptHost

import ScriptHost.Proofs.Wasm.Memory
import ScriptHost.Proofs.Wasm.ReferenceSets

/-!
# What a run asks of the host

An invocation makes one request after the other: while its references and its module are linked, in
its constructor and in its entry (`Compiled.commandRequests`, `Compiled.eventRequests`). Each finds
the host as the one before has left it, and nothing else changes the host (`Told`). So the entries
of a run are its texts in their order, and its message is the last one that was set
(`texts_heard`).
-/

namespace ScriptHost.Wasm

open HostFunction (hearing)

/-! ## Texts among requests -/

theorem Host.Hears.mem {h h' : Host} {text : String} {f : HostFunction} (hh : h.Hears text f h') :
    f ∈ hearing := by
  cases hh <;> decide

/-- Either the host was told a text, or its state is what it was. -/
theorem Machine.callHost_cases {s s' : Store} {caller : Option Nat} {f : HostFunction}
    {args results : List Value} (h : callHost s caller f args = .ok (s', results)) :
    s'.host = s.host ∨ ∃ ptr len text, args = [.i32 ptr, .i32 len] ∧
      Passes ((s.memoryOf caller).map Prod.snd) (signed ptr) (signed len) text ∧
      s.host.Hears text f s'.host := by
  have hmemory := memory_of_caller s caller
  unfold callHost at h
  dsimp only at h
  rw [hmemory] at h
  split at h
  · cases h
  · rename_i host memory results' hc
    have hcases := (Host.call_cases hc).1
    split at h <;> cases h <;> exact hcases

namespace Request

/-- The memory that a request is made with: the one that its caller exports. -/
def memory (r : Request) : Option Memory := (r.store.memoryOf r.caller).map Prod.snd

/-- The request passes a text to a function of the host. -/
structure Says (r : Request) (f : HostFunction) (text : String) : Prop where
  function : r.function = f
  passes : ∃ ptr len, r.args = [.i32 ptr, .i32 len] ∧
    Passes r.memory (signed ptr) (signed len) text

/-- The host hears what the request says, and is otherwise as it was. -/
theorem after_cases (r : Request) :
    (∃ f text, r.Says f text ∧ r.store.host.Hears text f r.after.host) ∨
      (∀ f ∈ hearing, ∀ text, ¬ r.Says f text) ∧ r.after.host = r.store.host := by
  by_cases h : ∃ f ∈ hearing, ∃ text, r.Says f text
  · obtain ⟨f, hf, text, rfl, ptr, len, hargs, hpasses⟩ := h
    obtain ⟨heard, host, hheard, hhears, hcall⟩ | ⟨hnone, -⟩ :=
      Machine.callHost_text r.store r.caller hf ptr len
    · refine .inl ⟨_, heard, ⟨rfl, ptr, len, hargs, hheard⟩, ?_⟩
      rw [after, hargs, hcall]
      exact hhears
    · exact absurd hpasses (hnone text)
  · refine .inr ⟨fun f hf text hsays => h ⟨f, hf, text, hsays⟩, ?_⟩
    unfold after
    split
    · rename_i s results hc
      obtain hsame | ⟨ptr, len, text, hargs, hpasses, hhears⟩ := Machine.callHost_cases hc
      · exact hsame
      · exact absurd ⟨_, hhears.mem, text, rfl, ptr, len, hargs, hpasses⟩ h
    · rfl

end Request

/-- The entries that requests make on the channels: one for each text that is printed. -/
inductive Enters : List Request → Entries → Prop where
  | nil : Enters [] []
  | print {r : Request} {rs : List Request} {text : String} {entries : Entries}
    (h : r.Says .print text) (hs : Enters rs entries) : Enters (r :: rs) (⟨.out, text⟩ :: entries)
  | printError {r : Request} {rs : List Request} {text : String} {entries : Entries}
    (h : r.Says .printError text) (hs : Enters rs entries) :
    Enters (r :: rs) (⟨.err, text⟩ :: entries)
  | silent {r : Request} {rs : List Request} {entries : Entries}
    (h : ∀ text, ¬ r.Says .print text ∧ ¬ r.Says .printError text) (hs : Enters rs entries) :
    Enters (r :: rs) entries

/-- The message after requests: the text of the last one that set it, or the message before. -/
def LastMessage (before : String) (requests : List Request) (message : String) : Prop :=
  (∃ earlier r later, requests = earlier ++ r :: later ∧ r.Says .setMessage message ∧
    ∀ q ∈ later, ∀ text, ¬ q.Says .setMessage text) ∨
  (∀ q ∈ requests, ∀ text, ¬ q.Says .setMessage text) ∧ message = before

/-- The host has heard the texts of requests, and nothing else. -/
structure Heard (before : Host) (requests : List Request) (after : Host) : Prop where
  handles : after.handles = before.handles
  selection : after.selection = before.selection
  output : ∃ entries, Enters requests entries ∧ after.output = before.output ++ entries
  message : LastMessage before.message requests after.message

/-! ## Requests one after the other -/

/-- Requests of a run: each finds the host as the one before has left it. -/
inductive Told : Host → List Request → Host → Prop where
  | nil (h : Host) : Told h [] h
  | cons {r : Request} {rs : List Request} {h : Host} (hs : Told r.after.host rs h) :
    Told r.store.host (r :: rs) h

namespace Told

variable {before between after : Host} {rs qs : List Request}

theorem append (h : Told before rs between) (h' : Told between qs after) :
    Told before (rs ++ qs) after := by
  induction h with
  | nil => exact h'
  | cons hs ih => exact .cons (ih h')

theorem of_eq (h : after = before) : Told before [] after := h ▸ .nil before

end Told

/-! ## What the host has heard -/

theorem Request.Says.unique {r : Request} {f g : HostFunction} {text other : String}
    (h : r.Says f text) (h' : r.Says g other) : g = f := h'.function.symm.trans h.function

theorem LastMessage.cons {r : Request} {rs : List Request} {before between message : String}
    (hr : r.Says .setMessage between ∨
      (∀ text, ¬ r.Says .setMessage text) ∧ between = before)
    (h : LastMessage between rs message) : LastMessage before (r :: rs) message := by
  obtain ⟨earlier, q, later, rfl, hq, hlater⟩ | ⟨hnone, rfl⟩ := h
  · exact .inl ⟨r :: earlier, q, later, rfl, hq, hlater⟩
  · obtain hsays | ⟨hsilent, rfl⟩ := hr
    · exact .inl ⟨[], r, rs, rfl, hsays, hnone⟩
    · exact .inr ⟨List.forall_mem_cons.2 ⟨hsilent, hnone⟩, rfl⟩

/-- One more request, before all others. -/
theorem Heard.cons {r : Request} {rs : List Request} {after : Host}
    (h : Heard r.after.host rs after) : Heard r.store.host (r :: rs) after := by
  obtain ⟨hhandles, hselection, ⟨entries, henters, houtput⟩, hmessage⟩ := h
  have hcases := r.after_cases
  generalize r.after.host = between at hcases hhandles hselection houtput hmessage
  obtain ⟨f, text, hsays, hhears⟩ | ⟨hsilent, rfl⟩ := hcases
  · cases hhears with
    | print =>
      have hother (other : String) : ¬ r.Says .setMessage other := fun h => nomatch hsays.unique h
      exact {
        handles := hhandles
        selection := hselection
        output := ⟨_, .print hsays henters, houtput.trans (List.append_assoc ..)⟩
        message := hmessage.cons (.inr ⟨hother, rfl⟩) }
    | printError =>
      have hother (other : String) : ¬ r.Says .setMessage other := fun h => nomatch hsays.unique h
      exact {
        handles := hhandles
        selection := hselection
        output := ⟨_, .printError hsays henters, houtput.trans (List.append_assoc ..)⟩
        message := hmessage.cons (.inr ⟨hother, rfl⟩) }
    | setMessage =>
      have hother (other : String) : ¬ r.Says .print other ∧ ¬ r.Says .printError other :=
        ⟨fun h => (nomatch hsays.unique h), fun h => nomatch hsays.unique h⟩
      exact {
        handles := hhandles
        selection := hselection
        output := ⟨entries, .silent hother henters, houtput⟩
        message := hmessage.cons (.inl hsays) }
  · exact {
      handles := hhandles
      selection := hselection
      output := ⟨entries, .silent (fun text => ⟨hsilent _ (by decide) text,
        hsilent _ (by decide) text⟩) henters, houtput⟩
      message := hmessage.cons (.inr ⟨hsilent _ (by decide), rfl⟩) }

/-- What requests do to the host is what they say, in their order. -/
theorem Told.heard {before after : Host} {rs : List Request} (h : Told before rs after) :
    Heard before rs after := by
  induction h with
  | nil h =>
    exact {
      handles := rfl
      selection := rfl
      output := ⟨[], .nil, (List.append_nil _).symm⟩
      message := .inr ⟨nofun, rfl⟩ }
  | cons hs ih => exact ih.cons

/-! ## Requests of code -/

namespace Machine

/-- What a machine asks of the host in so many steps. -/
def requests : Nat → Machine → List Request
  | 0, _ => []
  | fuel + 1, m =>
    m.request?.toList ++
      match m.step with
      | .inl m => requests fuel m
      | .inr _ => []

theorem step_told (m : Machine) :
    Told m.store.host m.request?.toList (storeAfter m.step).host := by
  have hdoes := m.step_does
  generalize m.request? = request, storeAfter m.step = s at hdoes
  cases hdoes with
  | alone h => exact .of_eq h.host_eq
  | asking h =>
    rw [← h.host_eq]
    exact .cons (.nil _)

theorem run_told (fuel : Nat) (m : Machine) :
    Told m.store.host (requests fuel m) (run fuel m).store.host := by
  induction fuel generalizing m with
  | zero => exact .nil _
  | succ fuel ih =>
    have hstep := m.step_told
    rw [requests, run]
    cases hm : m.step with
    | inl next =>
      rw [hm] at hstep
      exact hstep.append (ih next)
    | inr ended =>
      rw [hm] at hstep
      exact hstep.append (.nil _)

end Machine

namespace Store

/-- What a call from outside of all modules asks of the host. -/
def requests (s : Store) (address : Nat) (args : List Value) : List Request :=
  match s.functions[address]? with
  | none => []
  | some (.host _ h) => [⟨s, none, h, args⟩]
  | some (.code type owner code) =>
    Machine.requests Machine.fuel
      { store := s, frames := [Machine.frameOf type owner code args], depth := 1 }

theorem call_told (s : Store) (address : Nat) (args : List Value) :
    Told s.host (s.requests address args) (s.call address args).store.host := by
  unfold requests call
  rcases s.functions[address]? with _ | ⟨type, h⟩ | ⟨type, owner, code⟩
  · exact .nil _
  · have hlast : Told s.host [⟨s, none, h, args⟩] (Request.after ⟨s, none, h, args⟩).host :=
      .cons (r := ⟨s, none, h, args⟩) (.nil _)
    rw [Request.after] at hlast
    dsimp only at hlast ⊢
    cases hc : Machine.callHost s none h args <;> rw [hc] at hlast <;> exact hlast
  · exact Machine.run_told _ ⟨s, [Machine.frameOf type owner code args], 1⟩

/-- What an instance asks of the host while it starts. -/
def startRequests (s : Store) (owner : Nat) (m : Module) : List Request :=
  match m.start, s.instances[owner]? with
  | some f, some i => s.requests (i.functions.getD f 0) []
  | _, _ => []

theorem start_told (s : Store) (owner : Nat) (m : Module) :
    Told s.host (s.startRequests owner m) (s.start owner m).1.host := by
  unfold startRequests start
  rcases m.start with _ | f
  · exact .nil _
  rcases s.instances[owner]? with _ | i
  · exact .nil _
  have hcall := s.call_told (i.functions.getD f 0) []
  dsimp only
  cases hc : s.call (i.functions.getD f 0) [] <;> rw [hc] at hcall <;> exact hcall

/-- What a module asks of the host while an instance of it is made: only its start function does. -/
def instantiateRequests (s : Store) (m : Module) (imports : List Extern) : List Request :=
  let (s, owner) := s.allocate m imports
  match s.copyElements owner m.elements.zipIdx with
  | .error _ => []
  | .ok s =>
    match s.copyData owner m.data.zipIdx with
    | .error _ => []
    | .ok s => s.startRequests owner m

theorem instantiate_told (s : Store) (m : Module) (imports : List Extern) :
    Told s.host (s.instantiateRequests m imports) (s.instantiate m imports).1.host := by
  unfold instantiateRequests instantiate
  have hhost : (s.allocate m imports).1.host = s.host := rfl
  generalize s.allocate m imports = made at hhost
  obtain ⟨allocated, owner⟩ := made
  have helements := allocated.host_copyElements owner m.elements.zipIdx
  dsimp only
  rcases he : allocated.copyElements owner m.elements.zipIdx with ⟨failed, t⟩ | copied
  · rw [he] at helements
    exact .of_eq (helements.trans hhost)
  rw [he] at helements
  have hdata := copied.host_copyData owner m.data.zipIdx
  dsimp only
  rcases hd : copied.copyData owner m.data.zipIdx with ⟨failed, t⟩ | ready
  · rw [hd] at hdata
    exact .of_eq (hdata.trans (helements.trans hhost))
  rw [hd] at hdata
  have hready : ready.host = s.host := hdata.trans (helements.trans hhost)
  exact hready ▸ ready.start_told owner m

/-- What a call of an exported function asks of the host. -/
def exportRequests (s : Store) (owner : Nat) (name : String) (type : FuncType)
    (args : List Value) : List Request :=
  match s.exportedFunction? owner name with
  | none => []
  | some (address, found) => if found = type then s.requests address args else []

theorem callExport_told (s : Store) (owner : Nat) (name : String) (type : FuncType)
    (args : List Value) :
    Told s.host (s.exportRequests owner name type args)
      (s.callExport owner name type args).1.host := by
  unfold exportRequests callExport
  rcases s.exportedFunction? owner name with _ | ⟨address, found⟩
  · exact .nil _
  dsimp only
  split
  · have hcall := s.call_told address args
    cases hc : s.call address args <;> rw [hc] at hcall <;> exact hcall
  · exact .nil _

end Store

/-! ## Requests of an invocation -/

namespace Linker

/-- What a module asks of the host while an instance of it is made. -/
def instantiateRequests (l : Linker) (m : Module) : List Request :=
  match l.resolve m with
  | .error _ => []
  | .ok imports => l.store.instantiateRequests m imports

theorem instantiate_told (l : Linker) (m : Module) :
    Told l.store.host (l.instantiateRequests m) (l.instantiate m).1.host := by
  unfold instantiateRequests instantiate
  cases l.resolve m with
  | error fault => exact .nil _
  | ok imports => exact l.store.instantiate_told m imports

/-- The store after linking, whether it has succeeded or not. -/
def storeLinked {ε : Type} : Except (Store × ε) Linker → Store
  | .ok l => l.store
  | .error (s, _) => s

/-- Names take nothing away and change nothing. -/
theorem storeLinked_addReference (l : Linker) (r : Compiled) :
    storeLinked (l.addReference r) = (l.instantiate r.module).1 := by
  unfold addReference
  rcases l.instantiate r.module with ⟨s, fault | owner⟩
  · rfl
  dsimp only
  split
  · rename_i named hd
    exact defineExports_store hd
  · rfl

end Linker

namespace Compiled

/-- What the references that a module imports from ask of the host while they are linked. -/
def linkRequests (c : Compiled) (l : Linker) : List Compiled → List Request
  | [] => []
  | r :: rest =>
    if c.importsFrom r.name then
      l.instantiateRequests r.module ++
        match l.addReference r with
        | .ok l => c.linkRequests l rest
        | .error _ => []
    else c.linkRequests l rest

theorem linkReferences_told (c : Compiled) (l : Linker) (references : List Compiled) :
    Told l.store.host (c.linkRequests l references)
      (Linker.storeLinked (c.linkReferences l references)).host := by
  induction references generalizing l with
  | nil => exact .nil _
  | cons r rest ih =>
    rw [linkRequests, linkReferences]
    split
    · have hmade := l.instantiate_told r.module
      rw [← Linker.storeLinked_addReference] at hmade
      cases ha : l.addReference r with
      | ok next =>
        rw [ha] at hmade
        exact hmade.append (ih next)
      | error failure =>
        rw [ha] at hmade
        exact hmade.append (.nil _)
    · exact ih l

/-- What is asked of the host before an invocation calls anything. -/
def instantiateRequests (c : Compiled) (host : Host) (references : List Compiled) : List Request :=
  c.linkRequests (.ofHost host) references ++
    match c.linkReferences (.ofHost host) references with
    | .ok l => l.instantiateRequests c.module
    | .error _ => []

theorem instantiate_told (c : Compiled) (host : Host) (references : List Compiled) :
    Told host (c.instantiateRequests host references) (c.instantiate host references).1.host := by
  have hlinked := c.linkReferences_told (.ofHost host) references
  rw [Linker.host_ofHost] at hlinked
  unfold instantiateRequests instantiate
  rcases hl : c.linkReferences (.ofHost host) references with ⟨s, e⟩ | l
  · rw [hl] at hlinked
    exact hlinked.append (.nil _)
  · rw [hl] at hlinked
    have hmade := l.instantiate_told c.module
    dsimp only
    rcases hm : l.instantiate c.module with ⟨s, fault | owner⟩ <;> rw [hm] at hmade <;>
      exact hlinked.append hmade

/-- What the constructor of a command asks of the host, if there is one. -/
def constructRequests (command : TypeShape) (s : Store) (owner : Nat) : List Request :=
  match command.constructor? with
  | some new => s.exportRequests owner new.exportName ⟨[], [.i32]⟩ []
  | none => []

theorem construct_told (command : TypeShape) (s : Store) (owner : Nat) :
    Told s.host (constructRequests command s owner) (construct command s owner).1.host := by
  unfold constructRequests construct
  cases command.constructor? with
  | none => exact .nil _
  | some new => exact s.callExport_told ..

/-- All that an invocation of a command asks of the host. -/
def commandRequests (c : Compiled) (command : TypeShape) (host : Host)
    (references : List Compiled) : List Request :=
  match command.entry? with
  | none => []
  | some entry =>
    c.instantiateRequests host references ++
      match c.instantiate host references with
      | (_, .error _) => []
      | (s, .ok owner) =>
        constructRequests command s owner ++
          match construct command s owner with
          | (_, .error _) => []
          | (s, .ok this) =>
            s.exportRequests owner entry.exportName ⟨[.i32], [.i32]⟩ [.i32 (singleI32 this)]

theorem invokeCommand_told (c : Compiled) (command : TypeShape) (host : Host)
    (references : List Compiled) :
    Told host (c.commandRequests command host references)
      (c.invokeCommand command host references).1 := by
  rw [invokeCommand_eq_finish]
  unfold commandRequests
  cases command.entry? with
  | none => exact .nil _
  | some entry =>
    have hmade := c.instantiate_told host references
    dsimp only
    rcases hm : c.instantiate host references with ⟨s, e | owner⟩
    · rw [hm] at hmade
      exact hmade.append (.nil _)
    rw [hm] at hmade
    refine hmade.append ?_
    have hnew := construct_told command s owner
    unfold finishCommand
    dsimp only
    rcases hn : construct command s owner with ⟨s', e | this⟩
    · rw [hn] at hnew
      exact hnew.append (.nil _)
    rw [hn] at hnew
    refine hnew.append ?_
    have hentry := s'.callExport_told owner entry.exportName ⟨[.i32], [.i32]⟩
      [.i32 (singleI32 this)]
    dsimp only
    rcases he : s'.callExport owner entry.exportName ⟨[.i32], [.i32]⟩ [.i32 (singleI32 this)] with
      ⟨s'', e | results⟩ <;> rw [he] at hentry <;> exact hentry

/-- All that an invocation of an event handler asks of the host. -/
def eventRequests (c : Compiled) (method : Method) (host : Host)
    (references : List Compiled) : List Request :=
  c.instantiateRequests host references ++
    match c.instantiate host references with
    | (_, .error _) => []
    | (s, .ok owner) =>
      match s.exportedFunction? owner method.exportName with
      | none => []
      | some (address, type) =>
        match (type.params.zip [1, 2]).mapM fun (t, handle) => handleValue t handle with
        | .error _ => []
        | .ok args => s.requests address args

theorem invokeEventHandler_told (c : Compiled) (method : Method) (host : Host)
    (references : List Compiled) :
    Told host (c.eventRequests method host references)
      (c.invokeEventHandler method host references).1 := by
  rw [invokeEventHandler_eq_finish]
  unfold eventRequests
  have hmade := c.instantiate_told host references
  rcases hm : c.instantiate host references with ⟨s, e | owner⟩
  · rw [hm] at hmade
    exact hmade.append (.nil _)
  rw [hm] at hmade
  refine hmade.append ?_
  unfold finishEventHandler
  dsimp only
  rcases s.exportedFunction? owner method.exportName with _ | ⟨address, type⟩
  · exact .nil _
  dsimp only
  generalize (type.params.zip [1, 2]).mapM (fun x => handleValue x.1 x.2) = given
  rcases given with e | args
  · exact .nil _
  have hcall := s.call_told address args
  dsimp only
  cases hc : s.call address args <;> rw [hc] at hcall <;> exact hcall

/-- A command reports the message that the host has in the end. -/
theorem message_of_invokeCommand {c : Compiled} {command : TypeShape} {host : Host}
    {references : List Compiled} {result : CommandResult}
    (h : (c.invokeCommand command host references).2 = .ok result) :
    result.message = (c.invokeCommand command host references).1.message := by
  revert h
  rw [invokeCommand_eq_finish]
  cases command.entry? with
  | none => nofun
  | some entry =>
    dsimp only
    rcases c.instantiate host references with ⟨s, e | owner⟩
    · nofun
    unfold finishCommand
    dsimp only
    rcases construct command s owner with ⟨s', e | this⟩
    · nofun
    dsimp only
    rcases s'.callExport owner entry.exportName ⟨[.i32], [.i32]⟩ [.i32 (singleI32 this)] with
      ⟨s'', e | results⟩
    · nofun
    · rintro ⟨⟩
      rfl

end Compiled

/-- **Texts of scripts.** A script that passes an address and a length to `print`, `print_error` or
`set_message` goes on, whatever they are. If they stand for a text in the memory that it exports,
then the host makes one entry on the channel or takes the text for its message, and nothing else
changes in the store; if they stand for none, nothing changes at all. A run has no other way to
write or to set the message: its requests follow each other, its entries are the texts that they
print, in their order, and its message is the text of the last one that set it. -/
theorem texts_heard :
    (∀ (s : Store) (caller : Option Nat), ∀ f ∈ hearing, ∀ ptr len : UInt32,
      (∃ text host, Passes ((s.memoryOf caller).map Prod.snd) (signed ptr) (signed len) text ∧
          s.host.Hears text f host ∧
          Machine.callHost s caller f [.i32 ptr, .i32 len] = .ok ({ s with host }, [])) ∨
        (∀ text, ¬ Passes ((s.memoryOf caller).map Prod.snd) (signed ptr) (signed len) text) ∧
          Machine.callHost s caller f [.i32 ptr, .i32 len] = .ok (s, [])) ∧
    (∀ (c : Compiled) (command : TypeShape) (host : Host) (references : List Compiled),
      Told host (c.commandRequests command host references)
          (c.invokeCommand command host references).1 ∧
        Heard host (c.commandRequests command host references)
          (c.invokeCommand command host references).1 ∧
        ∀ result, (c.invokeCommand command host references).2 = .ok result →
          LastMessage host.message (c.commandRequests command host references) result.message) ∧
    ∀ (c : Compiled) (method : Method) (host : Host) (references : List Compiled),
      Told host (c.eventRequests method host references)
          (c.invokeEventHandler method host references).1 ∧
        Heard host (c.eventRequests method host references)
          (c.invokeEventHandler method host references).1 := by
  refine ⟨fun s caller f hf ptr len => Machine.callHost_text s caller hf ptr len,
    fun c command host references => ?_, fun c method host references => ?_⟩
  · have htold := c.invokeCommand_told command host references
    refine ⟨htold, htold.heard, fun result h => ?_⟩
    rw [Compiled.message_of_invokeCommand h]
    exact htold.heard.message
  · have htold := c.invokeEventHandler_told method host references
    exact ⟨htold, htold.heard⟩

end ScriptHost.Wasm

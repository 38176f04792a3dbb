import ScriptHost.Proofs.Lua.Storing
import ScriptHost.Proofs.Rhai.Storing

/-!
# Handles that pass through scripts

A script that stores the handles under a key of its results gives them back to the host there, in
either of the interpreters that show them as one value. Lists and objects keep their nesting, empty
ones stay apart, null stays, and so do names, texts and integers of 64 bits with sign
(`Handles.passed_iff`). But an element number may have 64 bits without sign: a great one comes back
as the float next to it (`Handles.not_passed_greatElement`).
-/

namespace ScriptHost

/-- The run has succeeded, and its one result is a value under a key. -/
structure Execution.Publishes (e : Execution) (key : String) (j : Json) : Prop where
  outcome : e.outcome = .succeeded
  report : e.report = { results := [(key, j)] }

theorem Execution.Publishes.eq_of_publishes {e : Execution} {key : String} {j k : Json}
    (h : e.Publishes key j) (h' : e.Publishes key k) : j = k := by
  have hresults := congrArg Report.results (h.report.symm.trans h'.report)
  exact (Prod.mk.inj (List.cons.inj hresults).1).2

namespace Handles

/-- What is passed through has no floats. -/
def isPlain (h : Handles) : Bool :=
  h.commandData.isPlain && h.eventArgs.isPlain && h.eventSender.isPlain

/-- All integers that are passed through, element numbers among them, have 64 bits with sign. -/
def isNarrow (h : Handles) : Bool :=
  h.commandData.isNarrow && h.eventArgs.isNarrow && h.eventSender.isNarrow &&
    h.selection.all fun n => decide ((n.toNat : Int) ≤ Int64.maxValue.toInt)

theorem arePlain_elements (selection : List UInt64) :
    Json.arePlain (selection.map fun n => .int n.toNat) := by
  induction selection with
  | nil => rfl
  | cons n rest ih =>
    have hlow : Int64.minValue.toInt ≤ (n.toNat : Int) :=
      Int.le_trans (by decide) (Int.natCast_nonneg _)
    have hhigh : (n.toNat : Int) < UInt64.size := Int.ofNat_lt.2 n.toNat_lt
    rw [List.map_cons, Json.arePlain, Json.isPlain, ih, Bool.and_true]
    exact decide_eq_true ⟨hlow, hhigh⟩

theorem areNarrow_elements (selection : List UInt64) :
    Json.areNarrow (selection.map fun n => .int n.toNat) =
      selection.all fun n => decide ((n.toNat : Int) ≤ Int64.maxValue.toInt) := by
  induction selection with
  | nil => rfl
  | cons n rest ih => rw [List.map_cons, Json.areNarrow, Json.isNarrow, ih, List.all_cons]

variable {h : Handles}

theorem isPlain_toJson (hplain : h.isPlain) : h.toJson.isPlain := by
  have hnames : Json.Ascending [("command_data", h.commandData), ("document", .str h.document),
      ("event_args", h.eventArgs), ("event_sender", h.eventSender),
      ("selection", .arr (h.selection.map fun n => .int n.toNat))] := by
    rw [Json.ascending_iff_names]
    show ["command_data", "document", "event_args", "event_sender", "selection"].Pairwise (· < ·)
    decide
  rw [isPlain, Bool.and_assoc] at hplain
  rw [toJson, Json.isPlain, decide_eq_true hnames, Bool.true_and]
  simpa only [Json.havePlain, Json.isPlain, arePlain_elements, Bool.true_and, Bool.and_true]
    using hplain

theorem isNarrow_toJson (h : Handles) : h.toJson.isNarrow = h.isNarrow := by
  simp only [toJson, Json.isNarrow, Json.haveNarrow, areNarrow_elements, isNarrow, Bool.true_and,
    Bool.and_true, Bool.and_assoc]

/-- Handles that come back as where integers have a sign are unchanged if and only if none of their
integers is too great. -/
theorem publishes_iff {e : Execution} {key : String} {ofFloat : Float → Json}
    (hf : ∀ x n, ofFloat x ≠ .int n) (hplain : h.isPlain)
    (he : e.Publishes key (h.toJson.narrowed ofFloat)) :
    e.Publishes key h.toJson ↔ h.isNarrow := by
  rw [← isNarrow_toJson, ← Json.narrowed_eq_iff hf (isPlain_toJson hplain)]
  exact ⟨fun hsame => he.eq_of_publishes hsame, fun heq => heq ▸ he⟩

/-! ## Both interpreters -/

section

variable {key source : String}

theorem publishes_lua (hplain : h.isPlain) (layouts : Nat → Lua.Layout) (calls : List Lua.Call)
    (c : Lua.Call) (hc : c.invocation.handles = h)
    (hread : c.files.readText c.invocation.path = .ok source)
    (hstores : Lua.StoresHost (Lua.withoutMarks source) key) :
    ((calls.foldl Lua.Pool.perform { layouts }).run c.files c.invocation c.sink).2.Publishes key
      (h.toJson.narrowed Lua.ofFloat) := by
  subst hc
  obtain ⟨houtcome, hreport⟩ :=
    Lua.Pool.run_of_storesHost layouts calls c hread hstores (isPlain_toJson hplain)
  exact ⟨houtcome, hreport⟩

theorem publishes_rhai (hplain : h.isPlain) (e : Rhai.Embedded) (files : Files) (v : Invocation)
    (hv : v.handles = h) (hread : files.readText v.path = .ok source)
    (hstores : Rhai.StoresHost source key) (sink : Nat) :
    (e.run files v sink).2.Publishes key (h.toJson.narrowed Rhai.Value.outgoing) := by
  subst hv
  have hseen := e.seen_run_of_storesHost hread hstores (isPlain_toJson hplain) sink
  exact ⟨congrArg (·.1) hseen, congrArg (·.2.1) hseen⟩

end

/-! ## Scripts in a file -/

/-- A script of the first interpreter that stores the handles, with handles for it. -/
def storingCall (h : Handles) : Lua.Call :=
  { Lua.Pool.script 0 "__result__.host = __host__" with
    invocation := { engine := .lua, path := "p", handles := h } }

theorem readText_storingCall (h : Handles) :
    (storingCall h).files.readText "p" = .ok "__result__.host = __host__" :=
  Lua.Pool.readText_script 0 _

theorem storesHost_storingCall :
    Lua.StoresHost (Lua.withoutMarks "__result__.host = __host__") "host" :=
  ⟨_, .head _, _, .head _, rfl⟩

/-- The files with a script of the other interpreter that does the same, and its invocation. -/
def storingFiles : Files := (Lua.Pool.script 0 "__result__[\"host\"] = __host__;").files

def storingInvocation (h : Handles) : Invocation := { engine := .rhai, path := "p", handles := h }

theorem readText_storingFiles :
    storingFiles.readText "p" = .ok "__result__[\"host\"] = __host__;" :=
  Lua.Pool.readText_script 0 _

theorem storesHost_storingFiles : Rhai.StoresHost "__result__[\"host\"] = __host__;" "host" :=
  ⟨_, .tail _ (.head _), _, .tail _ (.head _), rfl⟩

/-- Handles with an object and a list that are empty, null in a list, and the greatest integer that
has room. -/
def nested : Handles where
  document := "plan"
  commandData := .obj [("list", .arr [.null, .arr [], .int (-5)]), ("nothing", .obj [])]
  selection := [7, 9223372036854775807]

/-! ## What comes back -/

/-- **Handles that pass through scripts.** Whatever an interpreter has been used for before: a
script that stores the handles under a key of its results has succeeded, and its one result is what
the handles are as one value, but for integers that have no room. It is just that value if and only
if all integers have 64 bits with sign. -/
theorem passed_iff (h : Handles) (hplain : h.isPlain) (key : String) :
    (∀ (layouts : Nat → Lua.Layout) (calls : List Lua.Call) (c : Lua.Call) (source : String),
      c.invocation.handles = h → c.files.readText c.invocation.path = .ok source →
      Lua.StoresHost (Lua.withoutMarks source) key →
      let run := ((calls.foldl Lua.Pool.perform { layouts }).run c.files c.invocation c.sink).2
      run.Publishes key (h.toJson.narrowed Lua.ofFloat) ∧
        (run.Publishes key h.toJson ↔ h.isNarrow)) ∧
    ∀ (requests : List Rhai.Embedded.Request) (files : Files) (v : Invocation) (sink : Nat)
      (source : String), v.handles = h → files.readText v.path = .ok source →
      Rhai.StoresHost source key →
      let run := ((Rhai.Embedded.after requests).run files v sink).2
      run.Publishes key (h.toJson.narrowed Rhai.Value.outgoing) ∧
        (run.Publishes key h.toJson ↔ h.isNarrow) := by
  constructor
  · intro layouts calls c source hc hread hstores
    have hrun := publishes_lua hplain layouts calls c hc hread hstores
    exact ⟨hrun, publishes_iff Lua.ofFloat_ne_int hplain hrun⟩
  · intro requests files v sink source hv hread hstores
    have hrun := publishes_rhai hplain (Rhai.Embedded.after requests) files v hv hread hstores sink
    exact ⟨hrun, publishes_iff Rhai.Value.outgoing_ne_int hplain hrun⟩

/-- They come back as they are, from both interpreters, also when these have been used. -/
theorem passed_nested :
    nested.isPlain ∧ nested.isNarrow ∧
      ((([storingCall nested].foldl Lua.Pool.perform {}).run (storingCall nested).files
        (storingCall nested).invocation 0).2).Publishes "host" nested.toJson ∧
      ((Rhai.Embedded.after [.lock]).run storingFiles (storingInvocation nested)
        0).2.Publishes "host" nested.toJson := by
  have hplain : nested.isPlain := by decide
  have hnarrow : nested.isNarrow := by decide
  obtain ⟨hlua, hrhai⟩ := passed_iff nested hplain "host"
  refine ⟨hplain, hnarrow, ?_, ?_⟩
  · exact (hlua (fun _ => .standard) [storingCall nested] (storingCall nested) _ rfl
      (readText_storingCall nested) storesHost_storingCall).2.2 hnarrow
  · exact (hrhai [.lock] storingFiles (storingInvocation nested) 0 _ rfl
      readText_storingFiles storesHost_storingFiles).2.2 hnarrow

/-- An element number above the greatest integer with sign. -/
def greatElement : Handles where
  selection := [9223372036854775809]

/-- It does not come back as it is, from either interpreter. -/
theorem not_passed_greatElement :
    greatElement.isPlain ∧
      ¬ (Lua.Pool.run {} (storingCall greatElement).files (storingCall greatElement).invocation
        0).2.Publishes "host" greatElement.toJson ∧
      ¬ (Rhai.Embedded.run {} storingFiles (storingInvocation greatElement)
        0).2.Publishes "host" greatElement.toJson := by
  have hplain : greatElement.isPlain := by decide
  have hgreat : ¬ greatElement.isNarrow := by decide
  have hlua := publishes_lua hplain (fun _ => .standard) [] (storingCall greatElement) rfl
    (readText_storingCall _) storesHost_storingCall
  have hrhai := publishes_rhai hplain {} storingFiles (storingInvocation greatElement) rfl
    readText_storingFiles storesHost_storingFiles 0
  refine ⟨hplain, fun h => hgreat ?_, fun h => hgreat ?_⟩
  · exact (publishes_iff Lua.ofFloat_ne_int hplain hlua).1 h
  · exact (publishes_iff Rhai.Value.outgoing_ne_int hplain hrhai).1 h

end Handles

end ScriptHost

import ScriptHost.Lua.Interpreter

/-!
# Pools of interpreters

Interpreters outlive the runs that they were made for. Until it is asked for again, an
interpreter is idle in the pool; it is only given out for the document that it was made for.
-/

namespace ScriptHost.Lua

/-- `created` counts the interpreters made so far. The idle ones stand in `idle`, the one that
came back last in front. `layouts` has the memory that each interpreter gets. -/
structure Pool where
  created : Nat := 0
  idle : List Interpreter := []
  layouts : Nat → Layout := fun _ => .standard
  deriving Inhabited

namespace Pool

/-- The idle interpreters of a document, the one that came back last in front. -/
def idleOf (p : Pool) (document : String) : List Interpreter :=
  p.idle.filter fun i => i.document = document

/-- The pool without the idle interpreters of a document. -/
def without (p : Pool) (document : String) : Pool :=
  { p with idle := p.idle.filter fun i => i.document ≠ document }

/-- Drops the idle interpreters of a document and counts them. -/
def teardown (p : Pool) (document : String) : Pool × Nat :=
  (p.without document, (p.idleOf document).length)

/-- The first interpreter of a document in a list, and the others. -/
def takeFirst? (document : String) : List Interpreter → Option (Interpreter × List Interpreter)
  | [] => none
  | i :: rest =>
    if i.document = document then some (i, rest)
    else (takeFirst? document rest).map fun (found, others) => (found, i :: others)

/-- A new interpreter for a document. -/
def make (p : Pool) (document : String) : Pool × Interpreter :=
  let id := p.created + 1
  ({ p with created := id }, .new id document (p.layouts id))

/-- An interpreter for a document: the idle one that came back last, else a new one. With
`refresh` the idle ones of the document are dropped first. -/
def acquire (p : Pool) (document : String) (refresh : Bool) : Pool × Interpreter :=
  let p := if refresh then p.without document else p
  match takeFirst? document p.idle with
  | some (i, others) => ({ p with idle := others }, i)
  | none => p.make document

/-- What the log is told of an interpreter that was asked for. -/
def acquireEvents (p : Pool) (document : String) (refresh : Bool) (i : Interpreter) :
    List Log.Event :=
  let event (message : String) (field : String × Log.FieldValue) : Log.Event :=
    { level := .debug, target := "scriptrun_core::pool", message
      fields := [("document", .plain document), field] }
  let dropped := (p.idleOf document).length
  (if refresh ∧ dropped ≠ 0 then [event "refreshing interpreters" ("dropped", .number dropped)]
    else []) ++
  [event (if i.id = p.created + 1 then "creating interpreter" else "reusing interpreter")
    ("id", .number i.id)]

/-- The pool with an interpreter that has come back. -/
def release (p : Pool) (i : Interpreter) : Pool := { p with idle := i :: p.idle }

end Pool

end ScriptHost.Lua

import ScriptHost.Effect
import ScriptHost.Lua.Interchange
import ScriptHost.Lua.Located
import ScriptHost.Lua.Machine
import ScriptHost.Lua.Reachable

/-!
# Interpreters

An interpreter keeps a table of globals in which scripts run, its scope. What the scope does
not have is looked up in a table that holds the printer of the run, and from there in the
libraries, so that a stripped scope leaves the libraries alone.
-/

namespace ScriptHost.Lua

/-- An interpreter with the number that it was made under and the document that it belongs to;
`runs` counts the scripts that it has begun. -/
structure Interpreter where
  id : Nat
  document : String
  runs : Nat := 0
  store : Store

namespace Interpreter

/-- The tables that an interpreter adds to those of the libraries. -/
def printersAddress : Nat := Library.preloadAddress + 1
def scopeAddress : Nat := printersAddress + 1
def printersMetaAddress : Nat := printersAddress + 2
def scopeMetaAddress : Nat := printersAddress + 3

/-- The tables that an interpreter holds whatever scripts do. -/
def roots : List Nat :=
  [Store.globals, Store.stringMeta, Store.listMeta, Library.loadedAddress, printersAddress,
    scopeAddress]

/-- The store of a new interpreter. -/
def freshStore (layout : Layout) : Store :=
  let s := Store.initial
  let fallback (a : Nat) : Table := .ofFields [("__index", .table a)]
  { s with layout, tables := s.tables ++ #[
      { metatable := some printersMetaAddress }, { metatable := some scopeMetaAddress },
      fallback Store.globals, fallback printersAddress] }

def new (id : Nat) (document : String) (layout : Layout) : Interpreter :=
  { id, document, store := freshStore layout }

/-- The scope. -/
def scope (i : Interpreter) : Table := i.store.table scopeAddress

/-- Sets a field of a table as it is, whatever its metatable says. -/
def setField (s : Store) (address : Nat) (name : String) (v : Value) : Store :=
  s.modifyTable address (·.setField (.string (Bytes.ofString name)) v)

/-- The store with a printer for a sink. -/
def withPrinter (s : Store) (sink : Nat) : Store :=
  setField { s with serial := s.serial + 1 } printersAddress "print"
    (.builtin (.printer sink s.serial))

/-- The values that every run finds under names of their own, in the order in which they are
set. The store holds what they refer to. -/
def bindings (s : Store) (v : Invocation) : Store × List (String × Value) :=
  let (s, host) := s.ofJson v.handles.toJson
  let (s, result) := s.newTable {}
  let text (t : String) : Value := .string (Bytes.ofString t)
  (s, [("_G", .table scopeAddress), ("__name__", text "__main__"), ("__file__", text v.path),
    ("__debug__", .bool v.debug), ("__host__", host), ("__result__", result)] ++
    (v.command.bindings v.path).map fun (name, t) => (name, text t))

/-- The store as a host calls into it: in the main thread, with nothing written or raised. -/
def begun (s : Store) : Store :=
  { s.setThread Store.mainThread .running with
    current := Store.mainThread, written := [], traceback := [] }

/-- The store in which a script begins: its printer leads to the sink, and the scope has the
bindings of the invocation. -/
def prepared (s : Store) (v : Invocation) (sink : Nat) : Store :=
  let (s, fields) := bindings (withPrinter (begun s) sink) v
  s.modifyTable scopeAddress (·.withFields fields)

/-! ## Results -/

/-- A key of the results as a name. -/
def resultName? : Value → Option String
  | .string bs => bs.text?
  | .number n => n.toText.text?
  | _ => none

/-- The results that a script has published, with an event for each value that is skipped. A
key that is no name ends them. -/
def copyResults (s : Store) : List (Value × Value) →
    List (String × Json) × List Log.Event → List (String × Json) × List Log.Event
  | [], acc => acc
  | (key, value) :: rest, (results, events) =>
    match resultName? key with
    | none => (results, events)
    | some name =>
      match s.toJson value with
      | .ok json => copyResults s rest (Json.insertField name json results, events)
      | .error e =>
        copyResults s rest (results, events ++
          [{ level := .debug, target := "scriptrun_core::lua_engine"
             message := "skipping unserializable result"
             fields := [("key", .quoted name),
               ("error", .plain ("deserialize error: " ++ e.message))] }])

/-- The results that stand in the scope after a run. -/
def results (s : Store) : List (String × Json) × List Log.Event :=
  match (s.table scopeAddress).getString "__result__" with
  | .table a => copyResults s (s.table a).pairs ([], [])
  | _ => ([], [])

/-! ## Failures -/

/-- A text as far as a zero byte. -/
def shown (bs : Bytes) : String := Bytes.toText (bs.takeWhile (· ≠ 0))

/-- The text of an error, as its conversion to a text has ended. -/
def convertedText (e : Value) : Ended → Store × String
  | .returned s (.string bs :: _) => (s, shown bs)
  | .returned s _ | .failed s _ | .outOfSteps s => (s, shown (s.plainText e))

def errorText (s : Store) (e : Value) : Store × String :=
  convertedText e (s.call (.builtin (.base .tostring)) [e])

/-- An error with the calls that it was raised in, to the user and to the host. -/
def describedAs (text : String) (traceback : Bytes) : String × String :=
  let text := text ++ "\n" ++ Bytes.toText traceback
  ("runtime error: " ++ text, "RuntimeError(" ++ Text.Quoted.quote text ++ ")")

/-- What a failure of the host says to the user and to the host. -/
def describeFailure (s : Store) (text : String) : Failure → String × String
  | .inCallback cause traceback =>
    (text, "CallbackError \x7b traceback: " ++ Text.Quoted.quote (Bytes.toText traceback) ++
      ", cause: " ++ cause.describe ++ " \x7d")
  | .exit _ => describedAs text s.traceback

/-- What an error says to the user, and what it says to the host: each with the calls that it
was raised in. -/
def describe (s : Store) (e : Value) : Store × String × String :=
  match e with
  | .failure a =>
    (s, describeFailure s (Bytes.toText (s.plainText e)) (s.failures.getD a default))
  | e =>
    let traceback := s.traceback
    let (s, text) := errorText s e
    (s, describedAs text traceback)

/-- The status that an error ends the script with, if it does. -/
def exitStatus? (s : Store) : Value → Option Int
  | .failure a =>
    match s.failures.getD a default with
    | .exit status => some status
    | _ => none
  | _ => none

/-- The diagnostics of a failure, and what is written for them. -/
def failure (sink : Nat) (interpreter runtime : String) : Diagnostics × Effect :=
  let interpreter := Text.Newline.normalize interpreter
  let runtime := Text.Newline.normalize runtime
  ({ interpreter := some interpreter, runtime := some runtime },
    .error sink (Diagnostics.under Diagnostics.interpreterBanner interpreter ++ "\n\n" ++
      Diagnostics.under Diagnostics.runtimeBanner runtime ++ "\n"))

/-! ## Runs -/

/-- The name of the chunk of a script. -/
def chunkName (path : String) : Bytes := 64 :: Bytes.ofString path

/-- The message of a syntax error, each line with its place behind it. -/
def syntaxText (message : Bytes) : String :=
  Text.Newline.normalize (({} : Collector).collect (Bytes.toText message)).render

/-- The writes of a store as effects, and the store without them. -/
def takeWritten (s : Store) : Store × Effects :=
  ({ s with written := [] }, s.written.reverse.map fun w => .write w.sink ⟨.out, w.text⟩)

/-- The end of a script that has returned. -/
def succeeded (s : Store) : Store × Execution :=
  let (s, writes) := takeWritten s
  let (results, events) := results s
  (s, { outcome := .succeeded, report := { results }, effects := writes ++ events.map .log })

/-- The end of a script that has asked for it. -/
def exited (s : Store) (v : Invocation) (status : Int) : Store × Execution :=
  let (s, writes) := takeWritten s
  (s, { outcome := .exited
        effects := writes ++ [.log
          { level := .debug, target := "scriptrun_core::lua_engine", message := "script exited"
            fields := [("code", .number status), ("script", .plain v.path)] }] })

/-- The end of a script with an error, which says one thing to the user and one to the host. -/
def failed (s : Store) (sink : Nat) (texts : String × String) : Store × Execution :=
  let (s, writes) := takeWritten s
  let (diagnostics, write) := failure sink texts.1 texts.2
  (s, { outcome := .executionFailed, report := { diagnostics }, effects := writes ++ [write] })

/-- What becomes of a script from how its call has ended. -/
def finished (v : Invocation) (sink : Nat) : Ended → Store × Execution
  | .returned s _ => succeeded s
  | .failed s e =>
    match exitStatus? s e with
    | some status => exited s v status
    | none =>
      let (s, texts) := describe s e
      failed s sink texts
  | .outOfSteps s => failed s sink ("out of steps", "out of steps")

/-- Runs a script that has been loaded. -/
def execute (s : Store) (v : Invocation) (sink : Nat) (main : Value) : Store × Execution :=
  finished v sink (s.call main [])

/-- Runs a text as a script in a store that is prepared for it. -/
def runPrepared (s : Store) (v : Invocation) (sink : Nat) (source : String) : Store × Execution :=
  match Basics.loaded s (Bytes.ofString source) (chunkName v.path) (.table scopeAddress) with
  | .error message =>
    let text := syntaxText message
    (s, { outcome := .compileFailed
          report := { diagnostics := { interpreter := some text } }
          effects :=
            [.error sink (Diagnostics.under Diagnostics.interpreterBanner text ++ "\n")] })
  | .ok (s, main) => execute s v sink main

/-- Runs a text as a script of an invocation. -/
def run (i : Interpreter) (v : Invocation) (sink : Nat) (source : String) :
    Interpreter × Execution :=
  let (s, execution) := runPrepared (prepared i.store v sink) v sink source
  ({ i with runs := i.runs + 1, store := s }, execution)

/-! ## Between runs -/

/-- Does a key of the scope stay when it is stripped? Texts do that begin with two underscores,
and the name of the scope itself. -/
def isReserved : Value → Bool
  | .string bs =>
    bs.text?.isSome && (match bs with
      | 95 :: 95 :: _ => true
      | bs => bs == [95, 71])
  | _ => false

/-- The scope without what is not reserved, and the number of values taken away. No item is
reserved, since items stand under integers. -/
def stripScope (i : Interpreter) : Interpreter × Nat :=
  let gone := i.scope.pairs.filter fun pair => !isReserved pair.1
  let kept := i.scope.fields.filter fun field => isReserved field.1
  let strip (t : Table) : Table := { t with items := #[], fields := kept }
  ({ i with store := i.store.modifyTable scopeAddress strip }, gone.length)

/-- Puts a printer that writes nowhere in place of that of the run. -/
def detach (i : Interpreter) : Interpreter :=
  let s := i.store
  let s := setField { s with serial := s.serial + 1 } printersAddress "print"
    (.builtin (.silent s.serial))
  { i with store := s }

/-- How many printers still hold a sink. -/
def holders (i : Interpreter) (sink : Nat) : Nat :=
  ((i.store.heldPrinters roots).filter fun (s, _) => s = sink).length

end Interpreter

end ScriptHost.Lua

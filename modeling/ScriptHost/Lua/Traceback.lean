import ScriptHost.Lua.Frame
import ScriptHost.Lua.Library

/-!
# Tracebacks

The calls in which an error was raised, the latest first. A function goes by the name under
which the loaded modules have it, or else by that under which it was called. In the middle of a
long list a number stands for the calls that are left out.
-/

namespace ScriptHost.Lua.Traceback

/-- A call as it is shown: its place, its function, and whether it has taken the place of its
caller. -/
structure Level where
  place : Bytes
  function : Bytes
  isTail : Bool := false

/-- The function of the host that makes the list when an error is raised. -/
def Level.ofHandler : Level := { place := "[C]", function := "?" }

/-- The name of the field of a table that holds a function. -/
def fieldName? (t : Table) (f : Value) : Option Bytes :=
  t.pairs.findSome? fun (key, v) =>
    match key with
    | .string name => if v.rawEquals f then some name else none
    | _ => none

/-- The name that the loaded modules have for a function: behind the name of its module, which
the globals do without. -/
def loadedName? (s : Store) (f : Value) : Option Bytes :=
  (s.table Library.loadedAddress).pairs.findSome? fun (key, v) =>
    match key with
    | .string name =>
      if v.rawEquals f then some name
      else
        match v with
        | .table a => (fieldName? (s.table a) f).map fun field =>
          if name = ("_G" : Bytes) then field else name ++ "." ++ field
        | _ => none
    | _ => none

/-- The name under which the frame below calls a function. -/
def calledName? (below : Option Frame) : Option Bytes :=
  ((below.bind Frame.script?).bind Activation.current?).bind Step.calleeName? |>.map Origin.text

/-- A call of a library function. -/
def ofBuiltin (s : Store) (f : Builtin) (below : Option Frame) : Level where
  place := "[C]"
  function :=
    match loadedName? s (.builtin f) with
    | some name => "function '" ++ name ++ "'"
    | none => (calledName? below).getD "?"

/-- A call of a function of a script. -/
def ofScript (s : Store) (a : Activation) (below : Option Frame) : Level where
  place := a.prototype.chunk ++ ":" ++ Bytes.ofString (toString a.line)
  function :=
    match loadedName? s (.closure a.closure) with
    | some name => "function '" ++ name ++ "'"
    | none =>
      match if a.isTail then none else calledName? below with
      | some name => name
      | none =>
        if a.prototype.line = 0 then "main chunk"
        else "function <" ++ a.prototype.chunk ++ ":" ++
          Bytes.ofString (toString a.prototype.line) ++ ">"
  isTail := a.isTail

/-- The calls of frames. A handler that is looking at an error is called by nothing that can be
seen. -/
def ofFrames (s : Store) : List Frame → List Level
  | [] => []
  | f :: below =>
    match f.waiting with
    | .script a => ofScript s a below.head? :: ofFrames s below
    | .native g _ | .attempt g _ _ => ofBuiltin s g below.head? :: ofFrames s below
    | .handling => ofFrames s below

/-- The calls in which an error is raised by a library function, or by a step of a script. -/
def levels (s : Store) (f : Option Builtin) (frames : List Frame) : List Level :=
  (f.map fun f => ofBuiltin s f frames.head?).toList ++ ofFrames s frames

/-- Do scripts catch what is raised in the topmost frame? Printers only pass it on. -/
def isCaught : List Frame → Bool
  | [] => false
  | f :: below =>
    match f.waiting with
    | .attempt (.printer _ _) _ _ => false
    | .attempt _ _ _ => true
    | _ => isCaught below

/-- How many calls are shown before and behind those that are left out. -/
def firstShown : Nat := 10
def lastShown : Nat := 11

def Level.text (l : Level) : Bytes :=
  "\n\t" ++ l.place ++ ": in " ++ l.function ++ if l.isTail then "\n\t(...tail calls...)" else ""

/-- The list of calls. The number of calls left out does not count the first of them. -/
def text (ls : List Level) : Bytes :=
  let all (ls : List Level) : Bytes := (ls.map Level.text).flatten
  "stack traceback:" ++
    if firstShown + lastShown + 1 < ls.length then
      all (ls.take firstShown) ++ "\n\t...\t(skipping " ++
        Bytes.ofString (toString (ls.length - firstShown - lastShown - 1)) ++ " levels)" ++
        all (ls.drop (ls.length - lastShown))
    else all ls

end ScriptHost.Lua.Traceback

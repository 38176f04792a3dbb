import ScriptHost.Lua.Store

/-!
# What is still held

A value is held while it can be reached from the tables of the interpreter. Printers that
are held keep the sink of their run.
-/

namespace ScriptHost.Lua

/-- What has been reached, by the kinds of things that stand in the store. -/
structure Reached where
  tables : List Nat := []
  closures : List Nat := []
  cells : List Nat := []
  threads : List Nat := []
  printers : List (Nat × Nat) := []

namespace Store

/-- What the calls of a suspended thread hold. -/
def heldByCall (a : Activation) : List Value × List Nat :=
  (.closure a.closure :: a.stack ++ a.many ++ a.arguments ++ a.raising.toList, a.slots.toList)

/-- What a table holds: its metatable may say that keys or values do not count. -/
def heldByTable (s : Store) (t : Table) : List Value :=
  let mode := match t.metatable with
    | some m =>
      match (s.table m).getString "__mode" with
      | .string mode => mode
      | _ => []
    | none => []
  let keys := if mode.contains 107 then [] else t.fields.toList.map (·.1)
  let values := if mode.contains 118 then [] else t.items.toList ++ t.fields.toList.map (·.2)
  t.metatable.toList.map Value.table ++ keys ++ values

/-- Follows what is still to be looked at: values and cells. -/
def reach (s : Store) : Nat → List Value → List Nat → Reached → Reached
  | 0, _, _, r => r
  | _, [], [], r => r
  | fuel + 1, values, c :: cells, r =>
    if r.cells.contains c then reach s fuel values cells r
    else reach s fuel (s.cell c :: values) cells { r with cells := c :: r.cells }
  | fuel + 1, v :: values, [], r =>
    match v with
    | .table a =>
      if r.tables.contains a then reach s fuel values [] r
      else reach s fuel (s.heldByTable (s.table a) ++ values) [] { r with tables := a :: r.tables }
    | .closure a =>
      if r.closures.contains a then reach s fuel values [] r
      else
        reach s fuel values (s.closures.getD a default).upvalues.toList
          { r with closures := a :: r.closures }
    | .thread a =>
      if r.threads.contains a then reach s fuel values [] r
      else
        let r := { r with threads := a :: r.threads }
        match s.thread a with
        | .fresh f => reach s fuel (f :: values) [] r
        | .suspended calls =>
          let held := calls.map heldByCall
          reach s fuel (held.flatMap (·.1) ++ values) (held.flatMap (·.2)) r
        | .dead (some e) => reach s fuel (e :: values) [] r
        | _ => reach s fuel values [] r
    | .builtin (.wrapped t) => reach s fuel (.thread t :: values) [] r
    | .builtin (.printer sink serial) =>
      reach s fuel values [] { r with printers := (sink, serial) :: r.printers }
    | _ => reach s fuel values [] r

/-- How many references a coroutine holds at most. -/
def threadReferences : Thread → Nat
  | .suspended calls =>
    calls.foldl (fun n a => let held := heldByCall a; n + held.1.length + held.2.length) 2
  | _ => 3

/-- How many references there are at most. -/
def references (s : Store) : Nat :=
  let tables := s.tables.foldl (fun n t => n + t.items.size + 2 * t.fields.size + 3) 0
  let closures := s.closures.foldl (fun n c => n + c.upvalues.size + 1) 0
  let threads := s.threads.foldl (fun n t => n + threadReferences t) 0
  2 * (tables + closures + threads + s.cells.size) + 10

/-- The printers that can be reached from tables, each once. -/
def heldPrinters (s : Store) (roots : List Nat) : List (Nat × Nat) :=
  (s.reach (s.references + roots.length) (roots.map Value.table) [] {}).printers.eraseDups

end Store

end ScriptHost.Lua

import ScriptHost.Lua.Operation

/-!
# The table library

These functions see the table itself; of its metatable only the order of values takes part.
-/

namespace ScriptHost.Lua.Tables

def concat : Plain := fun s args => do
  let a ← Args.table s args 1
  let t := s.table a
  let sep ← Args.textOr s args 2 []
  let first ← Args.intOr s args 3 1
  let last ← Args.intOr s args 4 (.ofNat t.length)
  let count := (last.toInt + 1 - first.toInt).toNat
  let pieces ← (List.range count).mapM fun k => do
    let i := first + .ofNat k
    match (t.get (.int i)).text? with
    | some bs => pure bs
    | none =>
      throw (.here ("invalid value (at index " ++ (Number.int i).toText ++
        ") in table for 'concat'"))
  return (s, [.string (sep.intercalate pieces)])

/-- Moves the items from a place on by one place up. -/
def shiftUp (first last : Nat) (t : Table) : Table :=
  (List.range (last + 1 - first)).foldl (fun t k =>
    t.set (.ofNat (last + 1 - k)) (t.get (.ofNat (last - k)))) t

/-- Moves the items behind a place by one place down; the last one goes. -/
def shiftDown (first last : Nat) (t : Table) : Table :=
  ((List.range (last - first)).foldl (fun t k =>
    t.set (.ofNat (first + k)) (t.get (.ofNat (first + k + 1)))) t).set (.ofNat last) .nil

def insert : Plain := fun s args => do
  let a ← Args.table s args 1
  let last := (s.table a).length + 1
  match args.length with
  | 2 => return (s.modifyTable a (·.set (.ofNat last) (Args.value args 2)), [])
  | 3 =>
    let place ← Args.int s args 2
    if 1 ≤ place ∧ place.toInt ≤ last then
      let place := place.toInt.toNat
      return (s.modifyTable a fun t =>
        (shiftUp place (last - 1) t).set (.ofNat place) (Args.value args 3), [])
    else throw (.argument 2 "position out of bounds")
  | _ => throw (.here "wrong number of arguments to 'insert'")

def remove : Plain := fun s args => do
  let a ← Args.table s args 1
  let t := s.table a
  let size := t.length
  let place ← Args.intOr s args 2 (.ofNat size)
  let allowed := args.length < 2 || (1 ≤ place && place.toInt ≤ size + 1) ||
    (size == 0 && place == 0)
  if !allowed then throw (.argument 2 "position out of bounds")
  else
    let v := t.get (.int place)
    if place.toInt < size ∧ 1 ≤ place then
      return (s.modifyTable a (shiftDown place.toInt.toNat size), [v])
    else return (s.modifyTable a (·.set (.int place) .nil), [v])

/-- The table of values that stand behind each other, with their number. -/
def packed (values : List Value) : Table :=
  (values.zipIdx 1).foldl (fun t (v, i) => t.set (.ofNat i) v)
    { fields := #[(.string "n", .ofNat values.length)] }

def pack : Plain := fun s args =>
  let (s, v) := s.newTable (packed args)
  .ok (s, [v])

/-- The most values that can be unpacked at once. -/
def maxUnpacked : Nat := 1000000

/-- The items of a table between two places. -/
def itemsFrom (t : Table) (first last : Int64) : Except Fault (List Value) :=
  let count := (last.toInt + 1 - first.toInt).toNat
  if maxUnpacked ≤ count then .error (.here "too many results to unpack")
  else .ok ((List.range count).map fun k => t.get (.int (first + .ofNat k)))

def unpack : Plain := fun s args => do
  match Args.value args 1 with
  | .table a =>
    let first ← Args.intOr s args 2 1
    let last ← Args.intOr s args 3 (.ofNat (s.table a).length)
    let items ← itemsFrom (s.table a) first last
    return (s, items)
  | v => throw (.bare ("attempt to get length of a " ++ s.typeName v ++ " value"))

/-- The table that items are moved to, the one that they come from unless another is given. -/
def destination (s : Store) (args : Args) (a : Nat) : Except Fault Nat :=
  if Args.isNoneOrNil args 5 then .ok a else Args.table s args 5

/-- Moves an item of a table into another. -/
def moveItem (a b : Nat) (first target : Int64) (s : Store) (k : Nat) : Store :=
  let v := (s.table a).get (.int (first + .ofNat k))
  s.modifyTable b (·.set (.int (target + .ofNat k)) v)

def move : Plain := fun s args => do
  let a ← Args.table s args 1
  let first ← Args.int s args 2
  let last ← Args.int s args 3
  let target ← Args.int s args 4
  let b ← destination s args a
  let count := (last.toInt + 1 - first.toInt).toNat
  let upward := last < target ∨ target ≤ first ∨ a ≠ b
  let order := if upward then List.range count else (List.range count).reverse
  return (order.foldl (moveItem a b first target) s, [.table b])

/-! ## Sorting -/

/-- How a sort tells whether a value goes before another: by a function, or by the order of
values. -/
structure Order where
  byFunction : Option Value

/-- Goes on with whether one value goes before another, for values that their metatables may
put in order. -/
def handledBefore (s : Store) (a b : Value) (next : Store → Bool → Native) : Native :=
  match s.handler "__lt" a b with
  | .nil =>
    let x := s.typeName a
    let y := s.typeName b
    .fail s (.bare (if x = y then "attempt to compare two " ++ x ++ " values"
      else "attempt to compare " ++ x ++ " with " ++ y))
  | f => .call s f [a, b] fun s results => next s (results.headD .nil).truthy

/-- Goes on with whether one value goes before another. -/
def Order.before (o : Order) (s : Store) (a b : Value) (next : Store → Bool → Native) : Native :=
  match o.byFunction with
  | some f => .call s f [a, b] fun s results => next s (results.headD .nil).truthy
  | none =>
    match a, b with
    | .number x, .number y => next s (x.before false y)
    | .string x, .string y => next s (x.before y)
    | a, b => handledBefore s a b next

def item (s : Store) (a i : Nat) : Value := (s.table a).get (.ofNat i)

def setItem (s : Store) (a i : Nat) (v : Value) : Store := s.modifyTable a (·.set (.ofNat i) v)

def swapped (s : Store) (a i j : Nat) : Store :=
  let x := item s a i
  let y := item s a j
  setItem (setItem s a i y) a j x

def badOrder (s : Store) : Native := .fail s (.here "invalid order function for sorting")

/-- Swaps two items if the second goes before the first. -/
def arrange (o : Order) (a i j : Nat) (s : Store) (next : Store → Bool → Native) : Native :=
  o.before s (item s a j) (item s a i) fun s is =>
    if is then next (swapped s a i j) true else next s false

/-- The first place after `i` whose item does not go before the pivot. -/
def climb (o : Order) (a : Nat) (pivot : Value) (top : Nat) :
    Nat → Nat → Store → (Store → Nat → Native) → Native
  | 0, _, s, _ => badOrder s
  | fuel + 1, i, s, next =>
    o.before s (item s a (i + 1)) pivot fun s is =>
      if is then
        if i + 1 = top - 1 then badOrder s else climb o a pivot top fuel (i + 1) s next
      else next s (i + 1)

/-- The first place before `j` whose item the pivot does not go before. -/
def descend (o : Order) (a : Nat) (pivot : Value) (i : Nat) :
    Nat → Nat → Store → (Store → Nat → Native) → Native
  | 0, _, s, _ => badOrder s
  | fuel + 1, j, s, next =>
    o.before s pivot (item s a (j - 1)) fun s is =>
      if is then
        if j - 1 < i then badOrder s else descend o a pivot i fuel (j - 1) s next
      else next s (j - 1)

/-- Divides the items between two places around a pivot, which stands before the last one. -/
def divide (o : Order) (a : Nat) (pivot : Value) (low high : Nat) :
    Nat → Nat → Nat → Store → (Store → Nat → Native) → Native
  | 0, _, _, s, _ => badOrder s
  | fuel + 1, i, j, s, next =>
    climb o a pivot high (high + 1) i s fun s i =>
      descend o a pivot i (high + 1) j s fun s j =>
        if j < i then next (swapped s a (high - 1) i) i
        else divide o a pivot low high fuel i j (swapped s a i j) next

/-- Swaps an item in the middle with the first one or else with the last one, if their order
asks for it. -/
def arrangeMiddle (o : Order) (a low middle high : Nat) (s : Store) (next : Store → Native) :
    Native :=
  arrange o a low middle s fun s was =>
    if was then next s else arrange o a middle high s fun s _ => next s

/-- Divides the items between two places around one of them. -/
def divideAround (o : Order) (a low middle high : Nat) (s : Store)
    (next : Store → Nat → Native) : Native :=
  divide o a (item s a middle) low high (high + 1) low (high - 1)
    (swapped s a middle (high - 1)) next

/-- Sorts the items between two places. -/
def sortBetween (o : Order) (a : Nat) :
    Nat → Nat → Nat → Store → (Store → Native) → Native
  | 0, _, _, s, next => next s
  | fuel + 1, low, high, s, next =>
    if high ≤ low then next s
    else
      arrange o a low high s fun s _ =>
        if high - low = 1 then next s
        else
          arrangeMiddle o a low ((low + high) / 2) high s fun s =>
            if high - low = 2 then next s
            else
              divideAround o a low ((low + high) / 2) high s fun s p =>
                -- The smaller part comes first.
                if p - low < high - p then
                  sortBetween o a fuel low (p - 1) s fun s =>
                    sortBetween o a fuel (p + 1) high s next
                else
                  sortBetween o a fuel (p + 1) high s fun s =>
                    sortBetween o a fuel low (p - 1) s next

/-- The order that is asked for. It is not looked at if there is nothing to sort. -/
def orderOf (s : Store) (args : Args) (a : Nat) : Except Fault Order :=
  if 1 < (s.table a).length ∧ !Args.isNoneOrNil args 2 then
    (Args.function s args 2).map fun f => ⟨some f⟩
  else .ok ⟨none⟩

def sort (s : Store) (args : Args) : Native :=
  .reading s (Args.table s args 1) fun a =>
    .reading s (orderOf s args a) fun o =>
      let size := (s.table a).length
      sortBetween o a (size + 1) 1 size s fun s => .done s []

def run (f : TableFunction) : Store → Args → Native :=
  match f with
  | .concat => .ofPlain concat
  | .insert => .ofPlain insert
  | .move => .ofPlain move
  | .pack => .ofPlain pack
  | .remove => .ofPlain remove
  | .sort => sort
  | .unpack => .ofPlain unpack

end ScriptHost.Lua.Tables

import ScriptHost.Toml.Scalar

/-!
# Reading TOML documents

Values nest in arrays and inline tables; a document is a sequence of headers and fields.
The result is the document's table, or the place of the first mistake.
-/

namespace ScriptHost.Toml

/-- The text after a word, if it begins here. -/
def word? : List Char → List Char → Option (List Char)
  | [], cs => some cs
  | w :: ws, c :: cs => if c = w then word? ws cs else none
  | _ :: _, [] => none

/-- A number, a date or a word. -/
def readPlain : Reader Value := fun cs =>
  match word? "true".toList cs, word? "false".toList cs with
  | some rest, _ => .ok (.boolean true, rest)
  | _, some rest => .ok (.boolean false, rest)
  | none, none =>
    match date? cs, float? cs, integer? cs with
    | some rest, _, _ => .ok (.date, rest)
    | none, some rest, _ => .ok (.float, rest)
    | none, none, some (n, rest) => .ok (.integer n, rest)
    | none, none, none => .error cs

/-- A field of an inline table, before it is put into the table. -/
structure Assignment where
  path : List Key
  place : Nat
  value : Value

/-- Puts the fields of an inline table together. -/
def assemble (assignments : List Assignment) : Option Fields :=
  assignments.foldlM (fun fields a =>
    match a.path.getLast? with
    | none => none
    | some key => fields.insert a.path.dropLast key.name a.place a.value) []

mutual

/-- A value; `fuel` bounds the number of steps and `depth` the nesting. -/
def readValue (fuel depth : Nat) : Reader Value := fun cs =>
  match fuel, cs with
  | 0, cs => .error cs
  | _ + 1, [] => .error []
  | fuel + 1, c :: rest =>
    if c = '"' ∨ c = '\'' then (readString (c :: rest)).map fun (s, rest) => (.string s, rest)
    else if c = '[' then
      match depth with
      | 0 => .error (c :: rest)
      | depth + 1 => readArray fuel depth [] rest
    else if c = '{' then
      match depth with
      | 0 => .error (c :: rest)
      | depth + 1 =>
        match skipBlanks rest with
        | '}' :: after => .ok (.table .written [], after)
        | start => readInline fuel depth start [] start
    else readPlain (c :: rest)

/-- The items of an array, from where an item or the closing bracket may stand. -/
def readArray (fuel depth : Nat) (done : List (Nat × Value)) : Reader Value := fun cs =>
  match fuel with
  | 0 => .error cs
  | fuel + 1 =>
    match skipLines (cs.length + 1) cs with
    | .error e => .error e
    | .ok (_, ']' :: rest) => .ok (.array done.reverse, rest)
    | .ok (_, rest) =>
      match readValue fuel depth rest with
      | .error e => .error e
      | .ok (value, after) =>
        match skipLines (after.length + 1) after with
        | .error e => .error e
        | .ok (_, ',' :: after) => readArray fuel depth ((rest.length, value) :: done) after
        | .ok (_, ']' :: after) => .ok (.array ((rest.length, value) :: done).reverse, after)
        | .ok (_, after) => .error after

/-- The fields of an inline table whose first field begins at `start`. -/
def readInline (fuel depth : Nat) (start : List Char) (done : List Assignment) :
    Reader Value := fun cs =>
  match fuel with
  | 0 => .error cs
  | fuel + 1 =>
    match readKey (cs.length + 1) [] cs with
    | .error e => .error e
    | .ok (path, '=' :: rest) =>
      let rest := skipBlanks rest
      match readValue fuel depth rest with
      | .error e => .error e
      | .ok (value, after) =>
        let done := ⟨path, rest.length, value⟩ :: done
        match skipBlanks after with
        | ',' :: after => readInline fuel depth start done after
        | '}' :: after =>
          match assemble done.reverse with
          | some fields => .ok (.table .written fields, after)
          | none => .error start
        | after => .error after
    | .ok (_, rest) => .error rest

end

/-- What is read of a document: the tables that are complete, and the one being filled with
its header, if it is not the document's own. -/
structure State where
  root : Fields := []
  header : Option (List Key × Key × Bool) := none
  place : Nat := 0
  fields : Fields := []

/-- Puts the table being filled at its place. -/
def State.finish (s : State) : Option Fields :=
  match s.header with
  | none => some s.fields
  | some (path, key, false) => s.root.closeTable path key.name s.place s.fields
  | some (path, key, true) => s.root.pushTable path key.name s.place s.fields

/-- Begins the table of a header. -/
def State.start (s : State) (names : List Key) (isList : Bool) (place : Nat) : Option State := do
  let key ← names.getLast?
  let path := names.dropLast
  let root ← s.finish
  if isList then
    let root ← root.openList path key
    return ⟨root, some (path, key, true), place, []⟩
  else
    let (root, fields) ← root.openTable path key.name
    return ⟨root, some (path, key, false), place, fields⟩

/-- A header from its first bracket: its names and whether it is of a list of tables. -/
def readHeader : Reader (List Key × Bool) := fun cs =>
  match cs with
  | '[' :: '[' :: rest =>
    match readKey (rest.length + 1) [] rest with
    | .error e => .error e
    | .ok (names, ']' :: ']' :: rest) => (endLine rest).map fun (_, rest) => ((names, true), rest)
    | .ok (_, ']' :: rest) => .error rest
    | .ok (_, rest) => .error rest
  | '[' :: rest =>
    match readKey (rest.length + 1) [] rest with
    | .error e => .error e
    | .ok (names, ']' :: rest) => (endLine rest).map fun (_, rest) => ((names, false), rest)
    | .ok (_, rest) => .error rest
  | rest => .error rest

/-- A field on its line. -/
def readAssignment : Reader Assignment := fun cs =>
  match readKey (cs.length + 1) [] cs with
  | .error e => .error e
  | .ok (path, '=' :: rest) =>
    let rest := skipBlanks rest
    match readValue (2 * rest.length + 2) 80 rest with
    | .error e => .error e
    | .ok (value, after) =>
      (endLine after).map fun (_, after) => (⟨path, rest.length, value⟩, after)
  | .ok (_, rest) => .error rest

/-- Goes through the lines of a document; `fuel` bounds their number. -/
def readLines (fuel : Nat) (s : State) (cs : List Char) : Except (List Char) Fields :=
  match fuel with
  | 0 => .error cs
  | fuel + 1 =>
    match skipBlanks cs with
    | [] =>
      match s.finish with
      | some fields => .ok fields
      | none => .error []
    | '#' :: rest =>
      match endLine ('#' :: rest) with
      | .error e => .error e
      | .ok (_, rest) => readLines fuel s rest
    | '[' :: rest =>
      let here := '[' :: rest
      match readHeader here with
      | .error e => .error e
      | .ok ((names, isList), after) =>
        match s.start names isList here.length with
        | some s => readLines fuel s after
        | none => .error here
    | here =>
      match newline? here with
      | some rest => readLines fuel s rest
      | none =>
        if here.head? = some '\r' then .error here
        else
          match readAssignment here with
          | .error e => .error e
          | .ok (a, after) =>
            match a.path.getLast? with
            | none => .error here
            | some key =>
              match s.fields.insert a.path.dropLast key.name a.place a.value with
              | some fields => readLines fuel { s with fields } after
              | none => .error here

/-- The line of the place where `left` characters are left of the text; the end of the text
counts to its last character. -/
def lineOf (source : List Char) (left : Nat) : Nat :=
  ((source.take (min (source.length - left) (source.length - 1))).count '\n') + 1

/-- The fields of a document, or the number of characters left at the first mistake. A byte
order mark at the start does not count. -/
def read (source : List Char) : Except Nat Fields :=
  let body := match source with
    | c :: rest => if c.toNat = 0xfeff then rest else source
    | [] => []
  (readLines (body.length + 2) {} body).mapError List.length

end ScriptHost.Toml

import ScriptHost.Lua.Native
import ScriptHost.Lua.Parser

/-!
# The basic functions

Among them are those that load text, that catch what is raised, and the printers that the
host gives to a run.
-/

namespace ScriptHost.Lua.Basics

/-- The longest name of a chunk in messages. -/
def maxChunkName : Nat := 59

/-- The most bytes of a text that stand for it. -/
def maxQuoted : Nat := 45

/-- How messages show the name of a chunk: a name after `=` as it is, the end of a path after
`@`, and of anything else the first line. -/
def shownChunk (name : Bytes) : Bytes :=
  match name with
  | 61 :: name => name.take maxChunkName
  | 64 :: path =>
    if path.length ≤ maxChunkName then path
    else "..." ++ path.drop (path.length - (maxChunkName - 3))
  | text =>
    let line := text.takeWhile (· ≠ 10)
    if line.length = text.length ∧ line.length < maxQuoted then "[string \"" ++ line ++ "\"]"
    else "[string \"" ++ line.take maxQuoted ++ "...\"]"

/-- The text of a script as a function whose globals are in the environment. -/
def loaded (s : Store) (text name : Bytes) (environment : Value) :
    Except Bytes (Store × Value) :=
  let chunk := shownChunk name
  match Prototype.ofText chunk text with
  | .error e => .error (e.text chunk)
  | .ok prototype =>
    let (s, cell) := s.newCell environment
    .ok (s.newClosure ⟨prototype, #[cell]⟩)

/-- The kinds of chunks that a call of `load` allows. -/
def loadMode (args : Args) : Bytes :=
  match Args.value args 3 with
  | .string mode => mode
  | _ => "bt"

def finishLoad (s : Store) (args : Args) (text name : Bytes) : Native :=
  let mode := loadMode args
  if !mode.contains 116 then
    .done s [.nil, .string ("attempt to load a text chunk (mode is '" ++ mode ++ "')")]
  else
    let environment := (Args.get? args 4).getD (.table Store.globals)
    match loaded s text name environment with
    | .ok (s, f) => .done s [f]
    | .error message => .done s [.nil, .string message]

/-- Calls a reader for pieces of text until there is none. -/
def readPieces (reader : Value) (next : Store → Except Value Bytes → Native) :
    Nat → Store → Bytes → Native
  | 0, s, text => next s (.ok text)
  | fuel + 1, s, text =>
    .attempt s reader [] none fun s result =>
      match result with
      | .error e => next s (.error e)
      | .ok results =>
        match results.headD .nil with
        | .nil | .string [] => next s (.ok text)
        | v =>
          match v.text? with
          | some piece => readPieces reader next fuel s (text ++ piece)
          | none => next s (.error (.string "reader function must return a string"))

/-- The most pieces that a reader can give. -/
def maxPieces : Nat := 1000000

def load (s : Store) (args : Args) : Native :=
  match (Args.value args 1).text? with
  | some text =>
    .reading s (Args.textOr s args 2 text) fun name => finishLoad s args text name
  | none =>
    .reading s (Args.textOr s args 2 "=(load)") fun name =>
      .reading s (Args.function s args 1) fun reader =>
        readPieces reader (fun s text =>
          match text with
          | .ok text => finishLoad s args text name
          | .error e => .done s [.nil, e]) maxPieces s []

/-- Raises a value. A text gets the place of the caller so many levels up. -/
def raised (v : Value) (level : Int64) : Fault :=
  match v with
  | .string text => if 0 < level then .message text level.toInt.toNat else .value v
  | v => .value v

def error : Plain := fun s args => do
  let level ← Args.intOr s args 2 1
  throw (raised (Args.value args 1) level)

def assert : Plain := fun s args => do
  let v ← Args.any args 1
  if v.truthy then return (s, args)
  else throw (raised ((Args.get? args 2).getD (.string "assertion failed!")) 1)

def collectgarbage : Plain := fun s args => do
  let option ← Args.textOr s args 1 "collect"
  if option = ("collect" : Bytes) ∨ option = ("stop" : Bytes) ∨ option = ("restart" : Bytes) then
    return (s, [.int 0])
  else if option = ("count" : Bytes) then return (s, [.float 32.0])
  else if option = ("step" : Bytes) ∨ option = ("isrunning" : Bytes) then return (s, [.bool true])
  else if option = ("incremental" : Bytes) ∨ option = ("generational" : Bytes) then
    return (s, [.string "incremental"])
  else if option = ("setpause" : Bytes) then return (s, [.int 200])
  else if option = ("setstepmul" : Bytes) then return (s, [.int 100])
  else throw (.argument 1 ("invalid option '" ++ option ++ "'"))

def getmetatable : Plain := fun s args => do
  let v ← Args.any args 1
  match s.metatable? v, v with
  | none, .failure _ => return (s, [.bool false])
  | none, _ => return (s, [.nil])
  | some m, _ =>
    match (s.table m).getString "__metatable" with
    | .nil => return (s, [.table m])
    | v => return (s, [v])

/-- The metatable that is to be set: nil for none. -/
def givenMetatable (s : Store) (args : Args) : Except Fault (Option Nat) :=
  match Args.get? args 2 with
  | some .nil => .ok none
  | some (.table m) => .ok (some m)
  | _ => Args.wrongType s args 2 "nil or table"

def setmetatable : Plain := fun s args => do
  let a ← Args.table s args 1
  let m ← givenMetatable s args
  match s.event (.table a) "__metatable" with
  | .nil => return (s.modifyTable a fun t => { t with metatable := m }, [.table a])
  | _ => throw (.here "cannot change a protected metatable")

def next : Plain := fun s args => do
  let a ← Args.table s args 1
  match (s.table a).next? (Args.value args 2) with
  | some (some (k, v)) => return (s, [k, v])
  | some none => return (s, [.nil])
  | none => throw (.bare "invalid key to 'next'")

def pairs (s : Store) (args : Args) : Native :=
  .reading s (Args.any args 1) fun v =>
    match s.event v "__pairs" with
    | .nil => .done s [.builtin (.base .next), v, .nil]
    | f => .call s f [v] fun s results =>
      .done s ((results ++ [Value.nil, .nil, .nil]).take 3)

def ipairs : Plain := fun s args => do
  let v ← Args.any args 1
  return (s, [.builtin .nextIndex, v, .int 0])

def nextIndex (s : Store) (args : Args) : Native :=
  .reading s (Args.int s args 2) fun n =>
    .withItem s (Args.value args 1) (.int (n + 1)) fun s v =>
      .done s (if v.isNil then [.nil] else [.int (n + 1), v])

def pcall (s : Store) (args : Args) : Native :=
  match args with
  | [] => .fail s (.bare "not enough arguments to pcall")
  | f :: args => .attempt s f args none fun s result =>
    .done s (match result with
      | .ok vs => .bool true :: vs
      | .error e => [.bool false, e])

def xpcall (s : Store) (args : Args) : Native :=
  match args with
  | f :: handler :: args => .attempt s f args (some handler) fun s result =>
    .done s (match result with
      | .ok vs => .bool true :: vs
      | .error e => [.bool false, e])
  | _ => .fail s (.bare "not enough arguments to xpcall")

def rawequal : Plain := fun s args => do
  let a ← Args.any args 1
  let b ← Args.any args 2
  return (s, [.bool (a.rawEquals b)])

def rawget : Plain := fun s args => do
  let a ← Args.table s args 1
  let k ← Args.any args 2
  return (s, [(s.table a).get k])

def rawlen : Plain := fun s args =>
  match Args.value args 1 with
  | .table a => .ok (s, [.ofNat (s.table a).length])
  | .string bs => .ok (s, [.ofNat bs.length])
  | _ => Args.wrongType s args 1 "table or string"

def rawset : Plain := fun s args => do
  let a ← Args.table s args 1
  let k ← Args.any args 2
  let v ← Args.any args 3
  match Store.badKey? k with
  | some reason => throw (.bare reason)
  | none => return (s.modifyTable a (·.set k v), [.table a])

/-- The arguments behind a place, which may be given from their end. -/
def selectFrom : Plain := fun s args => do
  let n ← Args.int s args 1
  let count := (args.length : Int)
  let i := if n < 0 then count + n.toInt else if n.toInt > count then count else n.toInt
  if i < 1 then throw (.argument 1 "index out of range")
  else return (s, args.drop i.toNat)

def select : Plain := fun s args =>
  match Args.value args 1 with
  | .string [35] => .ok (s, [.ofNat (args.length - 1)])
  | _ => selectFrom s args

/-- The number that text is in a base, with blanks around it and a sign. -/
def numberInBase? (base : Nat) (bs : Bytes) : Option Int64 :=
  let bs := ((bs.dropWhile Bytes.isBlank).reverse.dropWhile Bytes.isBlank).reverse
  let (negative, ds) := match bs with
    | 45 :: ds => (true, ds)
    | ds => (false, ds)
  let digit? (b : UInt8) : Option Nat :=
    let d := if Bytes.isDigit b then b.toNat - 48 else (Bytes.toLower b).toNat - 87
    if Bytes.isAlphanumeric b ∧ d < base then some d else none
  match ds.mapM digit? with
  | some (d :: rest) =>
    let n : Nat := (d :: rest).foldl (fun n d => base * n + d) 0
    some (.ofInt (if negative then -n else n))
  | _ => none

/-- A number or numeral as a number; nil for anything else. -/
def asNumber : Plain := fun s args => do
  match Args.value args 1 with
  | .number n => return (s, [.number n])
  | .string bs => return (s, [(Number.ofText? bs).elim Value.nil .number])
  | _ =>
    let _ ← Args.any args 1
    return (s, [.nil])

/-- A text as a number in a base. -/
def readInBase : Plain := fun s args => do
  let base ← Args.int s args 2
  match Args.value args 1 with
  | .string bs =>
    if base < 2 ∨ 36 < base then throw (.argument 2 "base out of range")
    else return (s, [(numberInBase? base.toInt.toNat bs).elim Value.nil .int])
  | _ => Args.wrongType s args 1 "string"

def tonumber : Plain := fun s args =>
  if Args.isNoneOrNil args 2 then asNumber s args else readInBase s args

def tostring (s : Store) (args : Args) : Native :=
  .reading s (Args.any args 1) fun v => .withText s v fun s text => .done s [.string text]

def type : Plain := fun s args => do
  let v ← Args.any args 1
  return (s, [.string (Bytes.ofString v.typeName)])

/-- Files of scripts are not found by scripts. -/
def cannotOpen (name : Bytes) : Bytes := "cannot open " ++ name

def loadfile : Plain := fun s args => do
  let name ← Args.textOr s args 1 "stdin"
  return (s, [.nil, .string (cannotOpen name)])

def dofile : Plain := fun s args => do
  let name ← Args.textOr s args 1 "stdin"
  throw (.bare (cannotOpen name))

/-- The places where modules are looked for. -/
def searchPath : String :=
  "/usr/local/share/lua/5.4/?.lua;/usr/local/share/lua/5.4/?/init.lua;" ++
  "/usr/local/lib/lua/5.4/?.lua;/usr/local/lib/lua/5.4/?/init.lua;./?.lua;./?/init.lua"

/-- The table of modules that are loaded, and the table of those that can be loaded. -/
def packageField (s : Store) (name : String) : Value :=
  match (s.table Store.globals).getString "package" with
  | .table a => (s.table a).getString (Bytes.ofString name)
  | _ => .nil

/-- What one of these tables has under the name of a module. -/
def moduleIn (s : Store) (field : String) (name : Bytes) : Value :=
  match packageField s field with
  | .table a => (s.table a).getString name
  | _ => .nil

/-- Where a module has been looked for. -/
def notFound (name : Bytes) : Bytes :=
  let files := (searchPath.splitOn ";").map fun place =>
    "\n\tno file '" ++ name.intercalate ((place.splitOn "?").map Bytes.ofString) ++ "'"
  "module '" ++ name ++ "' not found:\n\tno field package.preload['" ++ name ++ "']" ++
    files.flatten

/-- The value of a module from what its loader gave. -/
def moduleValue : Value → Value
  | .nil => .bool true
  | v => v

/-- Keeps the value of a module. -/
def keepModule (s : Store) (name : Bytes) (v : Value) : Store :=
  match packageField s "loaded" with
  | .table a => s.modifyTable a (·.set (.string name) v)
  | _ => s

def require (s : Store) (args : Args) : Native :=
  .reading s (Args.text s args 1) fun name =>
    match moduleIn s "loaded" name with
    | .nil =>
      match moduleIn s "preload" name with
      | .nil => .fail s (.here (notFound name))
      | loader =>
        .call s loader [.string name, .string ":preload:"] fun s results =>
          let v := moduleValue (results.headD .nil)
          .done (keepModule s name v) [v, .string ":preload:"]
    | v => .done s [v]

/-! ## Printers -/

/-- Ends with a failure inside a function that the host adds. -/
def failIn (s : Store) (cause : Cause) : Native :=
  let (s, e) := s.newFailure (.inCallback cause [])
  .fail s (.value e)

/-- Ends with what was raised in the search for a text. A failure of the host goes on as it is. -/
def failText (s : Store) (e : Value) : Native :=
  match e with
  | .failure _ => .fail s (.value e)
  | e => .withText s e fun s' text => failIn s' (.raised (text ++ "\n" ++ s.traceback))

/-- Goes on with the texts of the values, or ends with the failure of the first that has none. -/
def withTexts (tostring : Value) (next : Store → List Bytes → Native) :
    List Value → Store → List Bytes → Native
  | [], s, texts => next s texts.reverse
  | v :: rest, s, texts =>
    .attempt s tostring [v] none fun s result =>
      match result with
      | .error e => failText s e
      | .ok results =>
        match (results.headD .nil).text? with
        | some text => withTexts tostring next rest s (text :: texts)
        | none =>
          failIn s (.conversion (results.headD .nil).typeName "String" "string or number")

/-- Writes texts to a sink, with tabs between them. -/
def writeLine (sink : Nat) (s : Store) (texts : List Bytes) : Native :=
  .done (s.write sink ("\t".intercalate (texts.map Bytes.toText) ++ "\n")) []

/-- Writes the texts of the arguments to a sink. The function that makes the texts is the global
one. -/
def print (sink : Nat) (s : Store) (args : Args) : Native :=
  .withItem s (.table Store.globals) (.string "tostring") fun s tostring =>
    match tostring with
    | .closure _ | .builtin _ => withTexts tostring (writeLine sink) args s []
    | v => failIn s (.conversion v.typeName "function" none)

def run (f : BaseFunction) : Store → Args → Native :=
  match f with
  | .assert => .ofPlain assert
  | .collectgarbage => .ofPlain collectgarbage
  | .dofile => .ofPlain dofile
  | .error => .ofPlain error
  | .getmetatable => .ofPlain getmetatable
  | .ipairs => .ofPlain ipairs
  | .load => load
  | .loadfile => .ofPlain loadfile
  | .next => .ofPlain next
  | .pairs => pairs
  | .pcall => pcall
  | .print => fun s _ => .done s []
  | .rawequal => .ofPlain rawequal
  | .rawget => .ofPlain rawget
  | .rawlen => .ofPlain rawlen
  | .rawset => .ofPlain rawset
  | .require => require
  | .select => .ofPlain select
  | .setmetatable => .ofPlain setmetatable
  | .tonumber => .ofPlain tonumber
  | .tostring => tostring
  | .type => .ofPlain type
  | .warn => fun s _ => .done s []
  | .xpcall => xpcall

end ScriptHost.Lua.Basics

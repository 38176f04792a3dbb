import ScriptHost.Lua.Code
import ScriptHost.Lua.Token

/-!
# From tokens to code

One pass over the tokens that emits the code of each construct from the code of its parts.
The reader knows which variables, labels and functions are open at each place, so that of
two mistakes the one that stands first is reported.
-/

namespace ScriptHost.Lua

/-- Can a variable be assigned to, and is its value closed at the end of its block? -/
inductive Attribute where
  | plain | const | close
  deriving DecidableEq

structure Variable where
  name : Bytes
  attrib : Attribute

/-- A label, and the number of variables that are open at it. -/
structure Label where
  name : Bytes
  id : Nat
  line : Nat
  level : Nat

/-- An open block: the variables before it, its labels, and the gotos in it that have not
found their label. -/
structure Block where
  level : Nat
  isLoop : Bool
  closes : Bool := false
  labels : List Label := []
  pending : List Label := []

/-- A function that is being read; the innermost block and the latest variable come first. -/
structure Scope where
  isVariadic : Bool := false
  blocks : List Block := []
  visible : List Variable := []
  captures : List (Bytes × Attribute × Capture) := []
  inner : List Prototype := []
  targets : List (Nat × Nat × Nat) := []
  nextId : Nat := 0

instance : Inhabited Scope := ⟨{}⟩

/-- What is left to read, the line of the last token before it, and the open functions, the
innermost first. -/
structure Reader where
  chunk : Bytes
  tokens : List Token
  read : Nat := 1
  scope : Scope := {}
  outer : List Scope := []

abbrev Reading := StateT Reader (Except SyntaxError)

/-- The code of an expression, by what can still be done with it. The code of an item leaves
the object and the key; `many` takes a last step by the number of values wanted. -/
inductive Shape where
  | value (code : Code)
  | many (code : Code) (last : Option Nat → Instr) (line : Nat) (isCall : Bool)
  | ofLocal (slot : Nat) (v : Variable)
  | ofUpvalue (index : Nat) (name : Bytes) (attrib : Attribute)
  | item (code : Code) (object : Option Origin) (line : Nat)

structure Expression where
  shape : Shape
  origin : Option Origin := none

namespace Expression

def ofConstant (c : Constant) (line : Nat) : Expression := ⟨.value [⟨.push c, line⟩], none⟩

/-- The code that leaves one value. -/
def one (e : Expression) (line : Nat) : Code :=
  match e.shape with
  | .value code => code
  | .many code last line _ => code ++ [⟨last (some 1), line⟩]
  | .ofLocal slot _ => [⟨.loadLocal slot, line⟩]
  | .ofUpvalue index _ _ => [⟨.loadUpvalue index, line⟩]
  | .item code object line => code ++ [⟨.index object, line⟩]

end Expression

/-- The variable of a name in a function: its own, or one that it has captured. -/
def Scope.find? (name : Bytes) (s : Scope) : Option Shape :=
  match s.visible.findIdx? fun (v : Variable) => v.name = name with
  | some i => (s.visible[i]?).map fun v => .ofLocal (s.visible.length - 1 - i) v
  | none => do
    let i ← s.captures.findIdx? fun (n, _, _) => n = name
    let (_, attrib, _) ← s.captures[i]?
    return .ofUpvalue i name attrib

namespace Reader

/-! ## Tokens -/

def current : Reading Token := return (← get).tokens.headD default

/-- A mistake at the current token. -/
def failNear {α : Type} (message : Bytes) : Reading α := do
  let t ← current
  throw ⟨t.line, message ++ " near " ++ t.shown⟩

/-- A mistake of meaning, which no token shows. -/
def failHere {α : Type} (message : Bytes) : Reading α := do
  throw ⟨(← current).line, message⟩

def checkToken : Reading Unit := do
  match (← current).lexeme with
  | .broken e => throw e
  | _ => return ()

def advance : Reading Unit := do
  modify fun r => { r with tokens := r.tokens.tail, read := (r.tokens.headD default).line }
  checkToken

/-- Is the current token this word or mark? -/
def isAt (text : String) : Reading Bool := do
  match (← current).lexeme with
  | .reserved word | .mark word => return word == text
  | .byte b => return Bytes.ofString text == [b]
  | _ => return false

def accept (text : String) : Reading Bool := do
  if ← isAt text then
    advance
    return true
  else return false

def quoted (text : String) : Bytes := Bytes.ofString ("'" ++ text ++ "'")

def expect (text : String) : Reading Unit := do
  unless ← accept text do failNear (quoted text ++ " expected")

/-- Expects what closes a construct that was opened on a line. -/
def expectClosing (text opened : String) (line : Nat) : Reading Unit := do
  unless ← accept text do
    if (← current).line = line then failNear (quoted text ++ " expected")
    else
      failNear (quoted text ++ " expected (to close " ++ quoted opened ++ " at line " ++
        Bytes.ofString (toString line) ++ ")")

def expectName : Reading Bytes := do
  match (← current).lexeme with
  | .name name =>
    advance
    return name
  | _ => failNear "<name> expected"

/-- Does the current token end a block? -/
def isBlockEnd (untilToo : Bool) : Reading Bool := do
  match (← current).lexeme with
  | .reserved word =>
    return word == "else" || word == "elseif" || word == "end" || (untilToo && word == "until")
  | .finish => return true
  | _ => return false

def lastLine : Reading Nat := return (← get).read

def currentLine : Reading Nat := return (← current).line

/-! ## Scopes -/

def modifyScope (f : Scope → Scope) : Reading Unit :=
  modify fun r => { r with scope := f r.scope }

def modifyBlock (f : Block → Block) : Reading Unit :=
  modifyScope fun s =>
    match s.blocks with
    | b :: rest => { s with blocks := f b :: rest }
    | [] => s

/-- The number of open variables, which is the slot of the next one. -/
def level : Reading Nat := return (← get).scope.visible.length

def declareVariable (name : Bytes) (attrib : Attribute := .plain) : Reading Unit :=
  modifyScope fun s => { s with visible := ⟨name, attrib⟩ :: s.visible }

def openBlock (isLoop : Bool) : Reading Unit :=
  modifyScope fun s => { s with blocks := { level := s.visible.length, isLoop } :: s.blocks }

def freshId : Reading Nat := do
  let id := (← get).scope.nextId
  modifyScope fun s => { s with nextId := id + 1 }
  return id

/-- Adds a label to the innermost block and leads the pending gotos of its name there. -/
def addLabel (name : Bytes) (line level : Nat) : Reading Code := do
  let id ← freshId
  let s := (← get).scope
  let block := s.blocks.headD ⟨0, false, false, [], []⟩
  let solved := block.pending.filter fun (g : Label) => g.name = name
  match solved.find? fun g => g.level < level with
  | some g =>
    let local_ := (s.visible.reverse[g.level]?).map Variable.name |>.getD []
    failHere ("<goto " ++ name ++ "> at line " ++ Bytes.ofString (toString g.line) ++
      " jumps into the scope of local '" ++ local_ ++ "'")
  | none =>
    modifyScope fun s =>
      { s with targets := solved.map (fun g => (g.id, id, level)) ++ s.targets }
    modifyBlock fun b =>
      { b with
        labels := ⟨name, id, line, level⟩ :: b.labels
        pending := b.pending.filter fun (g : Label) => g.name ≠ name }
    return [⟨.label id, ← lastLine⟩]

/-- Closes the innermost block: the code that ends it. -/
def closeBlock : Reading Code := do
  let s := (← get).scope
  match s.blocks with
  | [] => return []
  | block :: rest =>
    modifyScope fun s =>
      { s with visible := s.visible.drop (s.visible.length - block.level) }
    let end_ ← if block.isLoop then addLabel "break" 0 block.level else pure []
    let block := (← get).scope.blocks.headD block
    let line ← lastLine
    let close : Code := if block.closes then [⟨.close block.level, line⟩] else []
    match rest with
    | outer :: rest =>
      let moved := block.pending.map fun g => { g with level := min g.level block.level }
      modifyScope fun s =>
        { s with blocks := { outer with pending := outer.pending ++ moved } :: rest }
      return end_ ++ close
    | [] =>
      match block.pending with
      | [] =>
        modifyScope fun s => { s with blocks := [] }
        return end_ ++ close
      | g :: _ =>
        let line := Bytes.ofString (toString g.line)
        if g.name = ("break" : Bytes) then failHere ("break outside a loop at line " ++ line)
        else failHere ("no visible label '" ++ g.name ++ "' for <goto> at line " ++ line)

/-- The label that is visible under a name. -/
def label? (name : Bytes) : Reading (Option Label) := do
  return (← get).scope.blocks.findSome? fun (b : Block) =>
    b.labels.find? fun (l : Label) => l.name = name

/-- A jump to a label, which may still have to come. -/
def goto_ (name : Bytes) (line : Nat) : Reading Code := do
  let id ← freshId
  match ← label? name with
  | some l => modifyScope fun s => { s with targets := (id, l.id, l.level) :: s.targets }
  | none =>
    let here ← level
    modifyBlock fun b => { b with pending := b.pending ++ [⟨name, id, line, here⟩] }
  return [⟨.goto id, line⟩]

/-- The variable of a name in a function or those around it. A function between shares the
variable on the way. -/
def find? (name : Bytes) (s : Scope) : List Scope → Option (Scope × List Scope × Shape)
  | [] => (s.find? name).map fun shape => (s, [], shape)
  | next :: rest =>
    match s.find? name with
    | some shape => some (s, next :: rest, shape)
    | none =>
      let add (outer : List Scope) (attrib : Attribute) (c : Capture) :=
        some ({ s with captures := s.captures ++ [(name, attrib, c)] }, outer,
          Shape.ofUpvalue s.captures.length name attrib)
      match find? name next rest with
      | some (next, rest, .ofLocal slot v) => add (next :: rest) v.attrib (.ofLocal slot)
      | some (next, rest, .ofUpvalue i _ attrib) => add (next :: rest) attrib (.ofUpvalue i)
      | _ => none

/-- The name of the variable that holds the table of globals. -/
def environmentName : Bytes := "_ENV"

/-- The variable of a name, if there is one. -/
def resolve? (name : Bytes) : Reading (Option Expression) := do
  let r ← get
  match find? name r.scope r.outer with
  | some (scope, outer, shape) =>
    set { r with scope, outer }
    let kind := match shape with
      | .ofLocal _ _ => "local"
      | _ => "upvalue"
    return some ⟨shape, some ⟨kind, name⟩⟩
  | none => return none

/-- The item of an object under a constant key. -/
def fieldOf (object : Expression) (key : Bytes) : Reading Expression := do
  let line ← lastLine
  let isEnvironment : Bool := match object.shape with
    | .ofLocal _ v => v.name == environmentName
    | .ofUpvalue _ name _ => name == environmentName
    | _ => false
  return ⟨.item (object.one line ++ [⟨.push (.string key), line⟩]) object.origin line,
    some ⟨if isEnvironment then "global" else "field", key⟩⟩

/-- A name as an expression: a variable, or an item of the globals. -/
def named (name : Bytes) : Reading Expression := do
  match ← resolve? name with
  | some e => return e
  | none =>
    match ← resolve? environmentName with
    | some environment => fieldOf environment name
    | none => return .ofConstant .nil (← lastLine)

/-! ## Functions -/

def openFunction : Reading Unit :=
  modify fun r => { r with scope := {}, outer := r.scope :: r.outer }

/-- Ends a function that begins in a line and has this code; its number among those of the
function around it. -/
def closeFunction (begin_ parameters : Nat) (code : Code) : Reading (Prototype × Nat) := do
  let line ← lastLine
  let code := code ++ [⟨.leave 0 false, line⟩] ++ (← closeBlock)
  let r ← get
  let p : Prototype :=
    ⟨r.chunk, begin_, parameters, r.scope.isVariadic, code.resolve r.scope.targets, r.scope.inner,
      r.scope.captures.map fun (_, _, c) => c⟩
  match r.outer with
  | [] => return (p, 0)
  | outer :: rest =>
    set { r with scope := { outer with inner := outer.inner ++ [p] }, outer := rest }
    return (p, outer.inner.length)

/-! ## Parts of statements -/

/-- The codes of a list of expressions with all values of the last one; their number. -/
def spread (es : List Expression) (line : Nat) : Code × Nat × Bool :=
  match es.getLast? with
  | some ⟨.many code last at_ _, _⟩ =>
    ((es.dropLast.flatMap fun e => e.one line) ++ code ++ [⟨last none, at_⟩], es.length - 1, true)
  | _ => (es.flatMap fun e => e.one line, es.length, false)

/-- The code that leaves so many values, whatever the number of expressions. -/
def adjusted (es : List Expression) (count : Nat) (line : Nat) : Code :=
  let nils (n : Nat) : Code := List.replicate n ⟨.push .nil, line⟩
  if es.length = 0 then nils count
  else
    match es.getLast? with
    | some ⟨.many code last at_ _, _⟩ =>
      let before := es.dropLast.flatMap fun e => e.one line
      if es.length ≤ count then before ++ code ++ [⟨last (some (count - (es.length - 1))), at_⟩]
      else before ++ code ++ [⟨last (some 1), at_⟩, ⟨.drop (es.length - count), line⟩]
    | _ =>
      let all := es.flatMap fun e => e.one line
      if es.length ≤ count then all ++ nils (count - es.length)
      else all ++ [⟨.drop (es.length - count), line⟩]

/-- Takes the values of new variables from the stack, the last one first. -/
def declareAll (first count line : Nat) : Code :=
  ((List.range count).map fun i => ⟨.declare (first + i), line⟩).reverse

/-- Refuses to assign to what is constant. -/
def checkAssignable (e : Expression) : Reading Unit := do
  let constant := match e.shape with
    | .ofLocal _ v => if v.attrib = .plain then none else some v.name
    | .ofUpvalue _ name attrib => if attrib = .plain then none else some name
    | _ => none
  match constant with
  | some name => failHere ("attempt to assign to const variable '" ++ name ++ "'")
  | none => return ()

/-- Refuses to assign to what is no variable or item. -/
def checkTarget (e : Expression) : Reading Unit := do
  match e.shape with
  | .value _ | .many _ _ _ _ => failNear "syntax error"
  | _ => checkAssignable e

/-- The codes before an assignment: what its targets need on the stack. -/
def targetCode (e : Expression) : Code :=
  match e.shape with
  | .item code _ _ => code
  | _ => []

def targetSize (e : Expression) : Nat :=
  match e.shape with
  | .item _ _ _ => 2
  | _ => 0

/-- Assigns the topmost value. `above` values stand between it and what the target needs. -/
def assign (e : Expression) (above line : Nat) : Code :=
  match e.shape with
  | .ofLocal slot _ => [⟨.storeLocal slot, line⟩]
  | .ofUpvalue index _ _ => [⟨.storeUpvalue index, line⟩]
  | .item _ object _ => [⟨.setIndex above object, line⟩]
  | _ => []

/-- Assigns the topmost values to the targets, the last one first. -/
def assignAll (targets : List Expression) (line : Nat) : Code :=
  let sizes := targets.map targetSize
  let total := sizes.foldl (· + ·) 0
  let rec go (es : List (Expression × Nat)) : Code :=
    match es with
    | [] => []
    | (e, i) :: rest =>
      assign e (i + (sizes.drop (i + 1)).foldl (· + ·) 0) line ++ go rest
  go targets.zipIdx.reverse ++
    (if total = 0 then [] else [⟨.drop total, line⟩])

/-! ## Operators -/

/-- The binary operators with their binding to the left and to the right. -/
def binaryOperators : List (String × Nat × Nat) :=
  [("+", 10, 10), ("-", 10, 10), ("*", 11, 11), ("%", 11, 11), ("^", 14, 13), ("/", 11, 11),
    ("//", 11, 11), ("&", 6, 6), ("|", 4, 4), ("~", 5, 5), ("<<", 7, 7), (">>", 7, 7),
    ("..", 9, 8), ("==", 3, 3), ("<", 3, 3), ("<=", 3, 3), ("~=", 3, 3), (">", 3, 3),
    (">=", 3, 3), ("and", 2, 2), ("or", 1, 1)]

def unaryBinding : Nat := 12

/-- The operator at the current token. -/
def operator? (among : List (String × Nat × Nat)) : Reading (Option (String × Nat × Nat)) := do
  match (← current).lexeme with
  | .reserved word | .mark word => return among.find? fun (name, _) => name == word
  | .byte b => return among.find? fun (name, _) => Bytes.ofString name == [b]
  | _ => return none

def unaryOperators : List (String × Nat × Nat) :=
  [("not", 0, 0), ("-", 0, 0), ("~", 0, 0), ("#", 0, 0)]

def unary (op : String) (e : Expression) (line lastLine : Nat) : Expression :=
  let instr : Instr := match op with
    | "not" => .negate
    | "#" => .length e.origin
    | "-" => .arithmetic .unm e.origin none
    | _ => .arithmetic .bnot e.origin none
  ⟨.value (e.one lastLine ++ [⟨instr, line⟩]), none⟩

def binary (op : String) (a b : Expression) (line before after : Nat) : Expression :=
  let left := a.one before
  let right := b.one after
  let plain (instr : Instr) : Expression := ⟨.value (left ++ right ++ [⟨instr, line⟩]), none⟩
  let arithmetic (op : Arithmetic) := plain (.arithmetic op a.origin b.origin)
  match op with
  | "+" => arithmetic .add
  | "-" => arithmetic .sub
  | "*" => arithmetic .mul
  | "%" => arithmetic .mod
  | "^" => arithmetic .pow
  | "/" => arithmetic .div
  | "//" => arithmetic .idiv
  | "&" => arithmetic .band
  | "|" => arithmetic .bor
  | "~" => arithmetic .bxor
  | "<<" => arithmetic .shl
  | ">>" => arithmetic .shr
  | ".." => plain (.concat a.origin b.origin)
  | "==" => plain (.compare .eq)
  | "~=" => plain (.compare .ne)
  | "<" => plain (.compare .lt)
  | "<=" => plain (.compare .le)
  | ">" => plain (.compare .gt)
  | ">=" => plain (.compare .ge)
  | "and" => ⟨.value (left ++ [⟨.skipUnless right.length, line⟩] ++ right), none⟩
  | _ => ⟨.value (left ++ [⟨.skipIf right.length, line⟩] ++ right), none⟩

/-- How many items of a table constructor wait on the stack before they are stored. -/
def itemsAtOnce : Nat := 50

/-- What a table constructor has so far: its code, the items stored, and those that wait. -/
structure Construction where
  code : Code
  stored : Nat := 0
  waiting : Nat := 0

/-- Stores the waiting items if there are enough of them. -/
def Construction.flush (c : Construction) (line : Nat) : Construction :=
  if c.waiting < itemsAtOnce then c
  else ⟨c.code ++ [⟨.setItems c.stored c.waiting false, line⟩], c.stored + c.waiting, 0⟩

/-! ## The grammar -/

mutual

def expression : Nat → Reading Expression
  | 0 => failNear "chunk has too many syntax levels"
  | fuel + 1 => operation fuel 0
termination_by structural fuel => fuel

/-- An operand and the operators after it that bind tighter than `limit`. -/
def operation : Nat → Nat → Reading Expression
  | 0, _ => failNear "chunk has too many syntax levels"
  | fuel + 1, limit => do
    let first ← match ← operator? unaryOperators with
      | some (op, _) =>
        let line ← currentLine
        advance
        let e ← operation fuel unaryBinding
        pure (unary op e line (← lastLine))
      | none => simple fuel
    operations fuel limit first
termination_by structural fuel => fuel

def operations : Nat → Nat → Expression → Reading Expression
  | 0, _, e => return e
  | fuel + 1, limit, e => do
    match ← operator? binaryOperators with
    | some (op, left, right) =>
      if limit < left then
        let line ← currentLine
        let before ← lastLine
        advance
        let second ← operation fuel right
        operations fuel limit (binary op e second line before (← lastLine))
      else return e
    | none => return e
termination_by structural fuel => fuel

def simple : Nat → Reading Expression
  | 0 => failNear "chunk has too many syntax levels"
  | fuel + 1 => do
    let t ← current
    let constant (c : Constant) : Reading Expression := do
      advance
      return .ofConstant c t.line
    match t.lexeme with
    | .number n => constant (.number n)
    | .string s =>
      advance
      return { Expression.ofConstant (.string s) t.line with origin := some ⟨"constant", s⟩ }
    | .reserved "nil" => constant .nil
    | .reserved "true" => constant (.bool true)
    | .reserved "false" => constant (.bool false)
    | .mark "..." =>
      if (← get).scope.isVariadic then
        advance
        return ⟨.many [] .varargs t.line false, none⟩
      else failNear "cannot use '...' outside a vararg function"
    | .byte 123 => table fuel
    | .reserved "function" =>
      advance
      functionBody fuel false t.line
    | _ => suffixed fuel
termination_by structural fuel => fuel

def primary : Nat → Reading Expression
  | 0 => failNear "chunk has too many syntax levels"
  | fuel + 1 => do
    let t ← current
    match t.lexeme with
    | .name name =>
      advance
      named name
    | .byte 40 =>
      advance
      let e ← expression fuel
      let code := e.one (← lastLine)
      expectClosing ")" "(" t.line
      return ⟨.value code, e.origin⟩
    | _ => failNear "unexpected symbol"
termination_by structural fuel => fuel

def suffixed : Nat → Reading Expression
  | 0 => failNear "chunk has too many syntax levels"
  | fuel + 1 => do
    let e ← primary fuel
    suffixes fuel e
termination_by structural fuel => fuel

def suffixes : Nat → Expression → Reading Expression
  | 0, e => return e
  | fuel + 1, e => do
    let t ← current
    let before ← lastLine
    match t.lexeme with
    | .byte 46 =>
      advance
      let name ← expectName
      suffixes fuel (← fieldOf e name)
    | .byte 91 =>
      let object := e.one before
      let key ← bracketed fuel
      let line ← lastLine
      let origin : Origin := match key.shape, key.origin with
        | .value [⟨.push (.string s), _⟩], _ => ⟨"field", s⟩
        | .value [⟨.push (.number (.int n)), _⟩], _ =>
          ⟨"field", if 0 ≤ n ∧ n ≤ 255 then "integer index" else "?"⟩
        | _, _ => ⟨"field", "?"⟩
      suffixes fuel ⟨.item (object ++ key.one line) e.origin line, some origin⟩
    | .byte 58 =>
      advance
      let name ← expectName
      let code := e.one before ++ [⟨.method name e.origin, ← lastLine⟩]
      suffixes fuel (← arguments fuel code 1 (some ⟨"method", name⟩))
    | .byte 40 | .string _ | .byte 123 =>
      suffixes fuel (← arguments fuel (e.one before) 0 e.origin)
    | _ => return e
termination_by structural fuel => fuel

/-- An expression in square brackets. -/
def bracketed : Nat → Reading Expression
  | 0 => failNear "chunk has too many syntax levels"
  | fuel + 1 => do
    advance
    let e ← expression fuel
    let line ← lastLine
    let e : Expression := match e.shape with
      | .value _ => e
      | _ => ⟨.value (e.one line), e.origin⟩
    expect "]"
    return e
termination_by structural fuel => fuel

/-- The arguments of a call, after the code of the function and `given` first arguments. -/
def arguments : Nat → Code → Nat → Option Origin → Reading Expression
  | 0, _, _, _ => failNear "chunk has too many syntax levels"
  | fuel + 1, code, given, callee => do
    let t ← current
    let call (args : Code × Nat × Bool) : Expression :=
      ⟨.many (code ++ args.1) (fun want => .call (given + args.2.1) args.2.2 want callee) t.line
        true, none⟩
    match t.lexeme with
    | .string s =>
      advance
      return call ([⟨.push (.string s), t.line⟩], 1, false)
    | .byte 123 =>
      let e ← table fuel
      return call (e.one (← lastLine), 1, false)
    | .byte 40 =>
      advance
      if ← accept ")" then return call ([], 0, false)
      else
        let es ← expressions fuel
        let line ← lastLine
        expectClosing ")" "(" t.line
        return call (spread es line)
    | _ => failNear "function arguments expected"
termination_by structural fuel => fuel

def expressions : Nat → Reading (List Expression)
  | 0 => failNear "chunk has too many syntax levels"
  | fuel + 1 => do
    let e ← expression fuel
    let line ← lastLine
    -- An item is read before what follows it.
    let e : Expression := match e.shape with
      | .item _ _ _ => ⟨.value (e.one line), e.origin⟩
      | _ => e
    if ← accept "," then return e :: (← expressions fuel)
    else return [e]
termination_by structural fuel => fuel

def table : Nat → Reading Expression
  | 0 => failNear "chunk has too many syntax levels"
  | fuel + 1 => do
    let line ← currentLine
    advance
    let c ← tableFields fuel line ⟨[⟨.newTable, line⟩], 0, 0⟩
    return ⟨.value c.code, none⟩
termination_by structural fuel => fuel

def tableFields : Nat → Nat → Construction → Reading Construction
  | 0, _, _ => failNear "chunk has too many syntax levels"
  | fuel + 1, opened, c => do
    let finish (c : Construction) : Reading Construction := do
      let line ← lastLine
      return { c with code := c.code ++
        (if c.waiting = 0 then [] else [⟨.setItems c.stored c.waiting false, line⟩]) }
    if ← accept "\x7d" then finish c
    else
      let c := c.flush (← lastLine)
      let second := (← get).tokens.tail.headD default
      let isField ← match (← current).lexeme, second.lexeme with
        | .name _, .broken e => throw e
        | .name _, .byte 61 => pure true
        | .byte 91, _ => pure true
        | _, _ => pure false
      let (c, last) ← if isField then
          let t ← current
          let key ← match t.lexeme with
            | .name name =>
              advance
              pure (Expression.ofConstant (.string name) t.line)
            | _ => bracketed fuel
          let keyCode := key.one (← lastLine)
          expect "="
          let value ← expression fuel
          let line ← lastLine
          pure ({ c with code := c.code ++ keyCode ++ value.one line ++
            [⟨.setField c.waiting, line⟩] }, none)
        else
          let e ← expression fuel
          let line ← lastLine
          pure ({ c with code := c.code ++ e.one line, waiting := c.waiting + 1 },
            some (c.code, e))
      if (← accept ",") || (← accept ";") then tableFields fuel opened c
      else
        expectClosing "\x7d" "\x7b" opened
        match last with
        | some (before, ⟨.many code lastStep at_ _, _⟩) =>
          let line ← lastLine
          return { c with code := before ++ code ++
            [⟨lastStep none, at_⟩, ⟨.setItems c.stored (c.waiting - 1) true, line⟩] }
        | _ => finish c
termination_by structural fuel => fuel

/-- A function from its parameters on. -/
def functionBody : Nat → Bool → Nat → Reading Expression
  | 0, _, _ => failNear "chunk has too many syntax levels"
  | fuel + 1, isMethod, line => do
    openFunction
    openBlock false
    expect "("
    if isMethod then declareVariable "self"
    parameters fuel
    let count ← level
    expect ")"
    let body ← statements fuel
    expectClosing "end" "function" line
    let (_, index) ← closeFunction line count body
    return ⟨.value [⟨.closure index, ← lastLine⟩], none⟩
termination_by structural fuel => fuel

def parameters : Nat → Reading Unit
  | 0 => return ()
  | fuel + 1 => do
    if ← isAt ")" then return ()
    else
      match (← current).lexeme with
      | .name name =>
        advance
        declareVariable name
        if ← accept "," then
          if ← isAt ")" then failNear "<name> expected" else parameters fuel
        else return ()
      | .mark "..." =>
        advance
        modifyScope fun s => { s with isVariadic := true }
      | _ => failNear "<name> expected"
termination_by structural fuel => fuel

def statements : Nat → Reading Code
  | 0 => failNear "chunk has too many syntax levels"
  | fuel + 1 => do
    if ← isBlockEnd true then return []
    else if ← isAt "return" then statement fuel
    else
      let code ← statement fuel
      return code ++ (← statements fuel)
termination_by structural fuel => fuel

/-- Statements in a block of their own. -/
def block : Nat → Reading Code
  | 0 => failNear "chunk has too many syntax levels"
  | fuel + 1 => do
    openBlock false
    let code ← statements fuel
    return code ++ (← closeBlock)
termination_by structural fuel => fuel

def statement : Nat → Reading Code
  | 0 => failNear "chunk has too many syntax levels"
  | fuel + 1 => do
    let t ← current
    match t.lexeme with
    | .byte 59 =>
      advance
      return []
    | .reserved "if" => conditional fuel t.line
    | .reserved "while" =>
      advance
      let condition ← expression fuel
      let test := condition.one (← lastLine)
      openBlock true
      expect "do"
      let body ← block fuel
      let line ← lastLine
      expectClosing "end" "while" t.line
      let back : Int := -((test.length : Int) + 1 + body.length + 1)
      return test ++ [⟨.jumpUnless (body.length + 1), line⟩] ++ body ++ [⟨.jump back, line⟩] ++
        (← closeBlock)
    | .reserved "do" =>
      advance
      let body ← block fuel
      expectClosing "end" "do" t.line
      return body
    | .reserved "for" =>
      openBlock true
      advance
      let name ← expectName
      let body ← match (← current).lexeme with
        | .byte 61 => counting fuel name
        | .byte 44 | .reserved "in" => iterating fuel name t.line
        | _ => failNear "'=' or 'in' expected"
      expectClosing "end" "for" t.line
      return body ++ (← closeBlock)
    | .reserved "repeat" =>
      openBlock true
      openBlock false
      advance
      let body ← statements fuel
      expectClosing "until" "repeat" t.line
      let condition ← expression fuel
      let line ← lastLine
      let test := condition.one line
      let inner := body ++ test
      let close ← closeBlock
      let back (n : Nat) : Int := -((inner.length : Int) + n)
      -- The variables of the body are closed on both ways out of the condition.
      let code := if close.isEmpty then inner ++ [⟨.jumpUnless (back 1), line⟩]
        else inner ++ [⟨.jumpUnless (close.length + 1), line⟩] ++ close ++
          [⟨.jump (close.length + 1), line⟩] ++ close ++
          [⟨.jump (back (2 * close.length + 3)), line⟩]
      return code ++ (← closeBlock)
    | .reserved "function" =>
      advance
      let first ← named (← expectName)
      let (target, isMethod) ← functionName fuel first
      let f ← functionBody fuel isMethod t.line
      checkAssignable target
      return targetCode target ++ f.one t.line ++ assignAll [target] t.line
    | .reserved "local" =>
      advance
      if ← accept "function" then
        let slot ← level
        declareVariable (← expectName)
        let f ← functionBody fuel false (← lastLine)
        let line ← lastLine
        return [⟨.push .nil, line⟩, ⟨.declare slot, line⟩] ++ f.one line ++
          [⟨.storeLocal slot, line⟩]
      else locals fuel
    | .mark "::" =>
      advance
      let name ← expectName
      match ← label? name with
      | some l =>
        failHere ("label '" ++ name ++ "' already defined on line " ++
          Bytes.ofString (toString l.line))
      | none =>
        expect "::"
        let between ← emptyStatements fuel
        let atEnd ← isBlockEnd false
        let here ← level
        let outside := ((← get).scope.blocks.head?.map Block.level).getD 0
        return (← addLabel name t.line (if atEnd then outside else here)) ++ between
    | .reserved "return" =>
      advance
      returning fuel
    | .reserved "break" =>
      advance
      goto_ "break" t.line
    | .reserved "goto" =>
      advance
      goto_ (← expectName) t.line
    | _ =>
      let e ← suffixed fuel
      if (← isAt "=") || (← isAt ",") then
        checkTarget e
        assignment fuel [e]
      else
        match e.shape with
        | .many code last line true => return code ++ [⟨last (some 0), line⟩]
        | _ => failNear "syntax error"
termination_by structural fuel => fuel

/-- The statements after a label that do nothing. -/
def emptyStatements : Nat → Reading Code
  | 0 => return []
  | fuel + 1 => do
    if (← isAt ";") || (← isAt "::") then
      let code ← statement fuel
      return code ++ (← emptyStatements fuel)
    else return []
termination_by structural fuel => fuel

/-- An assignment after its first targets. -/
def assignment : Nat → List Expression → Reading Code
  | 0, _ => failNear "chunk has too many syntax levels"
  | fuel + 1, targets => do
    if ← accept "," then
      let e ← suffixed fuel
      checkTarget e
      assignment fuel (targets ++ [e])
    else
      expect "="
      let es ← expressions fuel
      let line ← lastLine
      return targets.flatMap targetCode ++ adjusted es targets.length line ++
        assignAll targets line
termination_by structural fuel => fuel

/-- The parts of the name of a function. -/
def functionName : Nat → Expression → Reading (Expression × Bool)
  | 0, e => return (e, false)
  | fuel + 1, e => do
    if ← accept "." then functionName fuel (← fieldOf e (← expectName))
    else if ← accept ":" then return (← fieldOf e (← expectName), true)
    else return (e, false)
termination_by structural fuel => fuel

def conditional : Nat → Nat → Reading Code
  | 0, _ => failNear "chunk has too many syntax levels"
  | fuel + 1, opened => do
    advance
    let condition ← expression fuel
    let test := condition.one (← lastLine)
    expect "then"
    let body ← block fuel
    let line ← lastLine
    let t ← current
    let otherwise ← match t.lexeme with
      | .reserved "elseif" => conditional fuel opened
      | .reserved "else" =>
        advance
        let body ← block fuel
        expectClosing "end" "if" opened
        pure body
      | _ =>
        expectClosing "end" "if" opened
        pure []
    if otherwise.isEmpty then return test ++ [⟨.jumpUnless body.length, line⟩] ++ body
    else
      return test ++ [⟨.jumpUnless (body.length + 1), line⟩] ++ body ++
        [⟨.jump otherwise.length, line⟩] ++ otherwise
termination_by structural fuel => fuel

/-- A loop over numbers, from its first mark on. -/
def counting : Nat → Bytes → Reading Code
  | 0, _ => failNear "chunk has too many syntax levels"
  | fuel + 1, name => do
    let slot ← level
    expect "="
    let first ← expression fuel
    let first := first.one (← lastLine)
    expect ","
    let limit ← expression fuel
    let limit := limit.one (← lastLine)
    let step ← if ← accept "," then
        let step ← expression fuel
        pure (step.one (← lastLine))
      else pure [⟨.push (.number (.int 1)), ← lastLine⟩]
    for _ in [0, 1, 2] do declareVariable "(for state)"
    expect "do"
    let line ← lastLine
    openBlock false
    declareVariable name
    let body ← statements fuel
    let body := body ++ (← closeBlock)
    let start := first ++ limit ++ step ++ declareAll slot 3 line
    return start ++ [⟨.forPrepare slot (body.length + 1), line⟩] ++ body ++
      [⟨.forNext slot (-((body.length : Int) + 1)), line⟩]
termination_by structural fuel => fuel

/-- A loop over what an iterator gives, from the mark after its first name on. -/
def iterating : Nat → Bytes → Nat → Reading Code
  | 0, _, _ => failNear "chunk has too many syntax levels"
  | fuel + 1, name, line => do
    let slot ← level
    let names ← moreNames fuel
    let names := name :: names
    expect "in"
    let es ← expressions fuel
    let last ← lastLine
    for _ in [0, 1, 2, 3] do declareVariable "(for state)"
    expect "do"
    modifyBlock fun b => { b with closes := true }
    openBlock false
    for name in names do declareVariable name
    let body ← statements fuel
    let body := body ++ (← closeBlock)
    let start := adjusted es 4 last ++ declareAll slot 4 last ++
      [⟨.guard (slot + 3) "(for state)", last⟩]
    return start ++ [⟨.jump body.length, line⟩] ++ body ++
      [⟨.eachCall slot names.length, line⟩,
        ⟨.eachTest slot (-((body.length : Int) + 2)), line⟩]
termination_by structural fuel => fuel

def moreNames : Nat → Reading (List Bytes)
  | 0 => return []
  | fuel + 1 => do
    if ← accept "," then
      let name ← expectName
      return name :: (← moreNames fuel)
    else return []
termination_by structural fuel => fuel

/-- A declaration of variables, after its first word. -/
def locals : Nat → Reading Code
  | 0 => failNear "chunk has too many syntax levels"
  | fuel + 1 => do
    let slot ← level
    let declared ← attributedNames fuel false
    let es ← if ← accept "=" then expressions fuel else pure []
    let line ← lastLine
    for v in declared do declareVariable v.name v.attrib
    let closing : Code := declared.zipIdx.filterMap fun (v, i) =>
      if v.attrib = .close then some ⟨.guard (slot + i) v.name, line⟩ else none
    unless closing.isEmpty do modifyBlock fun b => { b with closes := true }
    return adjusted es declared.length line ++ declareAll slot declared.length line ++ closing
termination_by structural fuel => fuel

/-- Names with attributes; at most one of them is closed at the end of its block. -/
def attributedNames : Nat → Bool → Reading (List Variable)
  | 0, _ => return []
  | fuel + 1, closed => do
    let name ← expectName
    let attrib ← if ← accept "<" then
        let word ← expectName
        expect ">"
        if word = ("const" : Bytes) then pure Attribute.const
        else if word = ("close" : Bytes) then pure Attribute.close
        else failHere ("unknown attrib '" ++ word ++ "'")
      else pure Attribute.plain
    if attrib = .close ∧ closed then
      failHere "multiple to-be-closed variables in local list"
    else
      let v : Variable := ⟨name, attrib⟩
      if ← accept "," then
        return v :: (← attributedNames fuel (closed || attrib = .close))
      else return [v]
termination_by structural fuel => fuel

/-- What a function returns, after the word. -/
def returning : Nat → Reading Code
  | 0 => failNear "chunk has too many syntax levels"
  | fuel + 1 => do
    let es ← if (← isBlockEnd true) || (← isAt ";") then pure [] else expressions fuel
    let line ← lastLine
    let closes := (← get).scope.blocks.any Block.closes
    discard (accept ";")
    match es with
    | [⟨.many code last at_ true, _⟩] =>
      match last none with
      | .call count isSpread _ callee =>
        if closes then return code ++ [⟨last none, at_⟩, ⟨.leave 0 true, line⟩]
        else return code ++ [⟨.tailCall count isSpread callee, at_⟩]
      | _ => return code ++ [⟨last none, at_⟩, ⟨.leave 0 true, line⟩]
    | _ =>
      let (code, count, isSpread) := spread es line
      return code ++ [⟨.leave count isSpread, line⟩]
termination_by structural fuel => fuel

end

/-- A whole text as a function without parameters that takes any arguments. Its one variable
from outside is the table of globals. -/
def wholeChunk (fuel : Nat) : Reading Prototype := do
  modifyScope fun s =>
    { s with isVariadic := true, captures := [(environmentName, .plain, .ofLocal 0)] }
  openBlock false
  checkToken
  let code ← statements fuel
  match (← current).lexeme with
  | .finish => return (← closeFunction 0 0 code).1
  | _ => failNear "<eof> expected"

end Reader

/-- The code of a text. `chunk` is the name that messages show. -/
def Prototype.ofText (chunk : Bytes) (text : Bytes) : Except SyntaxError Prototype :=
  let tokens := Token.scan text
  match (Reader.wholeChunk (20 * tokens.length + 100)).run { chunk, tokens } with
  | .ok (p, _) => .ok p
  | .error e => .error e

/-- A syntax error with its place, as interpreters report it. -/
def SyntaxError.text (e : SyntaxError) (chunk : Bytes) : Bytes :=
  chunk ++ ":" ++ Bytes.ofString (toString e.line) ++ ": " ++ e.message

end ScriptHost.Lua

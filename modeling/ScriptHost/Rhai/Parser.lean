import ScriptHost.Rhai.Syntax

/-!
# From tokens to syntax

The reader goes over the tokens once. It knows the variables in sight, since an assignment to a
constant is a mistake of the text and a closure holds what it names of its surroundings.
-/

namespace ScriptHost.Rhai

/-- What is wrong with the text of a script. -/
inductive Mistake where
  | lexical (f : LexFault)
  | incomplete
  | unknownOperator (s : String)
  | missing (token why : String)
  | reserved (s : String)
  | wrongKind (wanted found : String)
  | nameExpected
  | propertyExpected
  | expected (what : String)
  | badIndex (text : String)
  | constantAssigned (name : String)
  | notAssignable
  | duplicateProperty (name : String)
  | nestedFunction
  | nestedExport
  | noFunctionName
  | noParameters (name : String)
  | duplicateParameter (function name : String)
  | noFunctionBody (name : String)
  | duplicateFunction (name : String) (parameters : Nat)
  | outsideLoop
  | defaultCondition
  | defaultNotLast
  | tooDeep
  deriving DecidableEq

def Mistake.message : Mistake → String
  | .lexical f => f.message
  | .incomplete => "Script is incomplete"
  | .unknownOperator s => "Unknown operator: '" ++ s ++ "'"
  | .missing token why => "Expecting '" ++ token ++ "' " ++ why
  | .reserved s =>
    "'" ++ s ++ "' is a reserved " ++ (if Token.isName s then "keyword" else "symbol")
  | .wrongKind wanted found => "Expecting " ++ wanted ++ ", not " ++ found
  | .nameExpected => "Expecting name of a variable"
  | .propertyExpected => "Expecting name of a property"
  | .expected what => "Expecting " ++ what ++ " expression"
  | .badIndex text => text
  | .constantAssigned name => "Cannot assign to constant " ++ name
  | .notAssignable => "Expression cannot be assigned to"
  | .duplicateProperty name => "Duplicated property for object map literal: " ++ name
  | .nestedFunction =>
    "Function definitions must be at global level and cannot be inside a block or another function"
  | .nestedExport => "Export statement can only appear at global level"
  | .noFunctionName => "Expecting function name in function declaration"
  | .noParameters name => "Expecting parameters for function " ++ name
  | .duplicateParameter function name =>
    "Duplicated parameter " ++ name ++ " for function " ++ function
  | .noFunctionBody name => "Expecting body statement block for function " ++ name
  | .duplicateFunction name n =>
    "Function " ++ name ++ " with " ++
      (match n with
        | 0 => "no parameters"
        | 1 => "1 parameter"
        | n => toString n ++ " parameters") ++ " already exists"
  | .outsideLoop => "Break statement should only be used inside a loop"
  | .defaultCondition => "This switch case cannot have a condition"
  | .defaultNotLast => "Default switch case must be the last"
  | .tooDeep => "Expression exceeds maximum complexity"

/-- A mistake and its place. -/
structure SyntaxFault where
  mistake : Mistake
  place : Position
  deriving DecidableEq

def SyntaxFault.message (f : SyntaxFault) : String :=
  "Syntax error: " ++ f.mistake.message ++ " (" ++ f.place.text ++ ")"

/-- What is left to read, the variables in sight with whether they are constant, the latest
first, the functions that were read, and what the closure that is being read names from
outside. `bars` says that a bar joins values, which it does not in the cases of a switch. -/
structure Reader where
  tokens : List (Token × Position)
  names : List (String × Bool) := []
  inLoop : Bool := false
  bars : Bool := true
  functions : List Function := []
  held : Option (List (String × Position)) := none

abbrev Reading := StateT Reader (Except SyntaxFault)

namespace Reader

def fail {α : Type} (m : Mistake) (p : Position) : Reading α := throw ⟨m, p⟩

/-- The next token, which stays. -/
def peek : Reading (Token × Position) := do
  match (← get).tokens with
  | t :: _ => pure t
  | [] => pure (.finish, {})

/-- The next token, taken. The last one of all stays. -/
def next : Reading (Token × Position) := do
  match (← get).tokens with
  | [t] => pure t
  | t :: rest => modify fun r => { r with tokens := rest }; pure t
  | [] => pure (.finish, {})

/-- Fails at the next token: with its own mistake if it has one. -/
def failHere {α : Type} (m : Mistake) : Reading α := do
  match ← peek with
  | (.fault f, p) => fail (.lexical f) p
  | (_, p) => fail m p

/-- Is the next token a mark? -/
def sees (s : String) : Reading Bool := do
  match ← peek with
  | (.mark t, _) => pure (t = s)
  | _ => pure false

/-- Takes a mark if it is next. -/
def accept (s : String) : Reading Bool := do
  if ← sees s then discard next; pure true
  else pure false

/-- Takes a mark that has to be next; its place. -/
def expect (s why : String) : Reading Position := do
  if ← sees s then return (← next).2
  else failHere (.missing s why)

/-- The name of a new variable. -/
def variableName : Reading (String × Position) := do
  match ← peek with
  | (.name s, p) =>
    if Token.functionWords.contains s ∨ s = "this" then fail (.reserved s) p
    else discard next; pure (s, p)
  | (.reserved s, p) => fail (.reserved s) p
  | _ => failHere .nameExpected

/-- Brings a variable into sight. -/
def bring (name : String) (isConstant : Bool) : Reading Unit :=
  modify fun r => { r with names := (name, isConstant) :: r.names }

/-- Reads something; the variables that it brings are out of sight afterwards. -/
def local_ {α : Type} (inner : Reading α) : Reading α := do
  let names := (← get).names
  let a ← inner
  modify fun r => { r with names }
  return a

/-- Reads something where a bar joins values, or where it does not. -/
def withBars {α : Type} (bars : Bool) (inner : Reading α) : Reading α := do
  let outside := (← get).bars
  modify fun r => { r with bars }
  let a ← inner
  modify fun r => { r with bars := outside }
  return a

/-- Reads the body of a loop. -/
def looped {α : Type} (inner : Reading α) : Reading α := do
  let outside := (← get).inLoop
  modify fun r => { r with inLoop := true }
  let a ← inner
  modify fun r => { r with inLoop := outside }
  return a

/-- Notes that a variable is named; a closure holds those that are not its own. -/
def noteName (name : String) (p : Position) : Reading Unit := do
  let r ← get
  match r.held with
  | some held =>
    if (r.names.lookup name).isNone ∧ (held.lookup name).isNone then
      set { r with held := some (held ++ [(name, p)]) }
  | none => pure ()

/-! ## Checks of literals -/

/-- What a literal is called where it cannot be a condition. -/
def kindOfCondition? : Expr → Option String
  | .constant (.int _) _ => some "a number"
  | .constant (.float _) _ => some "a floating-point number"
  | .constant (.char _) _ => some "a character"
  | .constant (.text _) _ | .template _ _ => some "a string"
  | .constant .unit _ => some "()"
  | .array _ _ => some "an array"
  | .map _ _ => some "an object map"
  | _ => none

/-- A condition that no literal shows not to be one. -/
def condition (e : Expr) : Reading Expr :=
  match kindOfCondition? e with
  | some kind => fail (.wrongKind "a boolean expression" kind) e.start
  | none => pure e

/-- What a literal is called where it cannot be gone through. -/
def kindOfSource? : Expr → Option String
  | .constant (.bool _) _ => some "a boolean"
  | .map _ _ => some "an object-map"
  | .array _ _ => none
  | e => kindOfCondition? e

/-- The source of a loop that no literal shows not to be one. -/
def source (e : Expr) : Reading Expr :=
  match kindOfSource? e with
  | some kind => fail (.wrongKind "an iterable value" kind) e.start
  | none => pure e

/-- Is a literal one that has no elements? -/
def hasNoElements : Expr → Bool
  | .constant v _ =>
    match v with
    | .text _ | .int _ => false
    | _ => true
  | .both .. | .either .. => true
  | _ => false

/-- What is wrong with an index, if literals show it. -/
def indexMistake? (root index : Expr) : Option String :=
  let nothing := "Only arrays, object maps and strings can be indexed"
  match index with
  | .constant v _ =>
    match v, root with
    | .int _, .map _ _ => some "Object map expects string index, not a number"
    | .int _, root => if hasNoElements root then some nothing else none
    | .text _, .array _ _ | .text _, .constant (.text _) _ | .text _, .template _ _ =>
      some "Array or string expects numeric index, not a string"
    | .text _, root => if hasNoElements root then some nothing else none
    | .float _, _ => some "Array access expects integer index, not a float"
    | .char _, _ => some "Array access expects integer index, not a character"
    | .unit, _ => some "Array access expects integer index, not ()"
    | .bool _, _ => some "Array access expects integer index, not a boolean"
    | _, _ => none
  | .both .. | .either .. => some "Array access expects integer index, not a boolean"
  | _ => none

/-- Fails where an assignment stands in place of a condition. -/
def noAssignment : Reading Unit := do
  match ← peek with
  | (.mark "=", p) => fail (.lexical (.badSymbol "Possibly a typo of '=='?")) p
  | (.mark s, p) =>
    if s.length = 2 ∧ s.endsWith "=" ∧ "+-*/%".toList.contains (s.toList.headD ' ') then
      fail (.lexical (.badSymbol "Expecting a boolean expression, not an assignment")) p
  | _ => pure ()

/-! ## Operators -/

/-- How tightly an operator binds; zero for what is none. -/
def precedence : Token → Nat
  | .mark s =>
    match s with
    | "||" | "^" | "|" => 30
    | "&&" | "&" => 60
    | "==" | "!=" => 90
    | "in" | "!in" => 110
    | "<" | "<=" | ">" | ">=" => 130
    | "??" => 135
    | ".." | "..=" => 140
    | "+" | "-" => 150
    | "*" | "/" | "%" => 180
    | "**" => 190
    | "<<" | ">>" => 210
    | _ => 0
  | _ => 0

/-- Does an operator bind its right operand first? -/
def bindsRight (t : Token) : Bool :=
  match t with
  | .mark s => s = "**"
  | _ => false

/-- The operator that is next, with how tightly it binds. -/
def nextPrecedence : Reading Nat := do
  match ← peek with
  | (.reserved s, p) => if Token.isName s then pure 0 else fail (.unknownOperator s) p
  | (t, _) => do
    let r ← get
    match t with
    | .mark "|" => pure (if r.bars then precedence t else 0)
    | _ => pure (precedence t)

/-- The operators that assign, with what they do before. -/
def assignment? : Token → Option (Option String)
  | .mark "=" => some none
  | .mark s =>
    if ["+=", "-=", "*=", "/=", "%=", "**=", "<<=", ">>=", "&=", "|=", "^="].contains s then
      some (some (String.ofList s.toList.dropLast))
    else none
  | _ => none

/-- The expression of an operator between two operands. -/
def combine (op : String) (left right : Expr) (p : Position) : Reading Expr :=
  match op with
  | "||" => do
    let right ← condition right
    return .either (← condition left) right p
  | "&&" => do
    let right ← condition right
    return .both (← condition left) right p
  | "??" => pure (.orElse left right p)
  | "in" => pure (.operate "contains" [right, left] p)
  | "!in" => pure (.operate "!" [.operate "contains" [right, left] p] p)
  | op => pure (.operate op [left, right] p)

/-- The expression of a sign before an operand. -/
def signed (op : String) (e : Expr) (p : Position) : Expr :=
  match op, e with
  | "-", .constant (.int n) _ =>
    if n = Int64.minValue then .operate "-" [e] p else .constant (.int (-n)) p
  | "-", .constant (.float x) _ => .constant (.float (-x)) p
  | "+", .constant (.int _) _ | "+", .constant (.float _) _ => e
  | op, e => .operate op [e] p

/-- The chain with one more link. -/
def extend (e : Expr) (l : Link) : Expr :=
  match e with
  | .chain root links => .chain root (links ++ [l])
  | e => .chain e [l]

/-- Is a link one that can be assigned to? -/
def isAssignable : Link → Bool
  | .index _ _ optional => !optional
  | .property _ _ _ optional => !optional
  | .method .. => false

/-- The assignment to an expression. -/
def assigned (op : Option String) (target value : Expr) (p : Position) : Reading Stmt := do
  match target with
  | .name [] s _ q =>
    if ((← get).names.lookup s).getD false then fail (.constantAssigned s) q
    else return .assign op target value p
  | .chain (.name [] _ _ _) links =>
    if (links.getLast?.map isAssignable).getD false then return .assign op target value p
    else fail .notAssignable target.place
  | e => fail .notAssignable e.start

/-! ## The grammar -/

/-- Takes the function that was read last into the list. -/
def define (f : Function) (p : Position) : Reading Unit := do
  let r ← get
  let same (g : Function) : Bool :=
    g.name = f.name && g.parameters.length = f.parameters.length
  if r.functions.any same then fail (.duplicateFunction f.name f.parameters.length) p
  else set { r with functions := r.functions ++ [f] }

/-- The parameters of a function, behind the opening bracket. -/
def parameters (name : String) : Nat → List String → Reading (List String)
  | 0, seen => pure seen
  | fuel + 1, seen => do
    if ← accept ")" then return seen
    match ← peek with
    | (.name s, p) =>
      if seen.contains s then fail (.duplicateParameter name s) p
      discard next
      if ← accept ")" then return seen ++ [s]
      discard (expect "," ("to separate the parameters of function '" ++ name ++ "'"))
      parameters name fuel (seen ++ [s])
    | _ => failHere (.missing ")" ("to close the parameters list of function '" ++ name ++ "'"))

/-- The parameters of a closure, behind the first bar. -/
def closureParameters : Nat → List String → Reading (List String)
  | 0, seen => pure seen
  | fuel + 1, seen => do
    if ← accept "|" then return seen
    let (s, p) ← variableName
    if seen.contains s then fail (.duplicateParameter "" s) p
    if ← accept "|" then return seen ++ [s]
    discard (expect "," "to separate the parameters of anonymous function")
    closureParameters fuel (seen ++ [s])

mutual

def expr : Nat → Reading Expr
  | 0 => failHere .tooDeep
  | n + 1 => do binary n 1 false (← unary n)
termination_by structural fuel => fuel

def unary : Nat → Reading Expr
  | 0 => failHere .tooDeep
  | n + 1 => do
    match ← peek with
    | (.mark s, p) =>
      if s = "-" ∨ s = "+" ∨ s = "!" then
        discard next
        return signed s (← unary n) p
      else linked n (← primary n)
    | _ => linked n (← primary n)
termination_by structural fuel => fuel

/-- Operators after a left operand, as long as they bind tighter than the one before it. -/
def binary : Nat → Nat → Bool → Expr → Reading Expr
  | 0, _, _, _ => failHere .tooDeep
  | n + 1, outer, outerRight, left => do
    let inner ← nextPrecedence
    if inner < outer ∨ (inner = outer ∧ !outerRight) then return left
    match ← next with
    | (.mark op, p) =>
      let right ← unary n
      let further ← nextPrecedence
      let right ←
        if inner < further ∨ (inner = further ∧ bindsRight (.mark op)) then
          binary n inner (bindsRight (.mark op)) right
        else pure right
      binary n outer outerRight (← combine op left right p)
    | (_, p) => fail .incomplete p
termination_by structural fuel => fuel

def primary : Nat → Reading Expr
  | 0 => failHere .tooDeep
  | n + 1 => do
    match ← peek with
    | (.finish, p) => fail .incomplete p
    | (.fault f, p) => fail (.lexical f) p
    | (.int k, p) => discard next; return .constant (.int k) p
    | (.float x, p) => discard next; return .constant (.float x) p
    | (.char c, p) => discard next; return .constant (.char c) p
    | (.text s, p) => discard next; return .constant (.text s) p
    | (.part s, p) =>
      discard next
      let first := if s = "" then [] else [Expr.constant (.text s) p]
      return .template (first ++ (← templateParts n)) p
    | (.name s, p) => discard next; named n s p
    | (.reserved s, p) => fail (.reserved s) p
    | (.mark s, p) =>
      match s with
      | "true" => discard next; return .constant (.bool true) p
      | "false" => discard next; return .constant (.bool false) p
      | "(" =>
        discard next
        if ← accept ")" then return .constant .unit p
        let e ← withBars true (expr n)
        discard (expect ")" "for a matching ( in this expression")
        return e
      | "[" => discard next; return .array (← items n) p
      | "#\x7b" => discard next; return .map (← fields n []) p
      | "|" => discard next; closure n (← closureParameters n []) p
      | "||" => discard next; closure n [] p
      | "\x7b" | "if" | "switch" | "while" | "loop" | "do" | "for" =>
        match ← statement n false with
        | some s => return .statement s p
        | none => return .constant .unit p
      | s => fail (.lexical (.unexpected s)) p
termination_by structural fuel => fuel

/-- The blocks and texts of a template behind its first part. -/
def templateParts : Nat → Reading (List Expr)
  | 0 => failHere .tooDeep
  | n + 1 => do
    let p := (← peek).2
    let e := Expr.statement (.block (← block n) p) p
    let piece (s : String) (q : Position) : List Expr :=
      if s = "" then [] else [.constant (.text s) q]
    match ← next with
    | (.text s, q) => return e :: piece s q
    | (.part s, q) => return e :: piece s q ++ (← templateParts n)
    | (.fault f, q) => fail (.lexical f) q
    | (_, q) => fail .incomplete q
termination_by structural fuel => fuel

/-- A variable or a call, behind its first name. -/
def named : Nat → String → Position → Reading Expr
  | 0, _, _ => failHere .tooDeep
  | n + 1, s, p => do
    if ← sees "::" then qualified n [] s p p
    else if ← accept "(" then return .call [] s (← arguments n s) p p
    else if Token.functionWords.contains s then fail (.reserved s) p
    else
      noteName s p
      return .name [] s p p
termination_by structural fuel => fuel

/-- A name in modules, behind one of its parts. -/
def qualified : Nat → List String → String → Position → Position → Reading Expr
  | 0, _, _, _, _ => failHere .tooDeep
  | n + 1, modules, s, start, p => do
    if ← accept "::" then
      match ← peek with
      | (.name t, q) => discard next; qualified n (modules ++ [s]) t start q
      | (.reserved t, q) => fail (.reserved t) q
      | _ => failHere .nameExpected
    else if ← accept "(" then return .call modules s (← arguments n s) start p
    else return .name modules s start p
termination_by structural fuel => fuel

/-- The arguments of a call, behind the opening bracket. -/
def arguments : Nat → String → Reading (List Expr)
  | 0, _ => failHere .tooDeep
  | n + 1, s => do
    let close := Mistake.missing ")"
      ("to close the arguments list of this function call '" ++ s ++ "'")
    if ← accept ")" then return []
    match ← peek with
    | (.finish, p) => fail close p
    | _ => pure ()
    let e ← withBars true (expr n)
    if ← accept ")" then return [e]
    match ← peek with
    | (.finish, p) => fail close p
    | _ => pure ()
    discard (expect "," ("to separate the arguments to function call '" ++ s ++ "'"))
    return e :: (← arguments n s)
termination_by structural fuel => fuel

/-- The items of an array, behind the opening bracket. -/
def items : Nat → Reading (List Expr)
  | 0 => failHere .tooDeep
  | n + 1 => do
    let close := Mistake.missing "]" "to end this array literal"
    if ← accept "]" then return []
    match ← peek with
    | (.finish, p) => fail close p
    | _ => pure ()
    let e ← withBars true (expr n)
    if ← accept "]" then return [e]
    match ← peek with
    | (.finish, p) => fail close p
    | _ => pure ()
    discard (expect "," "to separate the items of this array literal")
    return e :: (← items n)
termination_by structural fuel => fuel

/-- The fields of a map, behind the opening brace. -/
def fields : Nat → List String → Reading (List (String × Expr))
  | 0, _ => failHere .tooDeep
  | n + 1, seen => do
    let close := Mistake.missing "\x7d" "to end this object map literal"
    if ← accept "\x7d" then return []
    let (s, p) ← match ← peek with
      | (.name s, p) => discard next; pure (s, p)
      | (.text s, p) => discard next; pure (s, p)
      | (.reserved s, p) => fail (.reserved s) p
      | (.finish, p) => fail close p
      | _ => failHere .propertyExpected
    if seen.contains s then fail (.duplicateProperty s) p
    discard (expect ":" ("to follow the property '" ++ s ++ "' in this object map literal"))
    let e ← withBars true (expr n)
    if ← accept "\x7d" then return [(s, e)]
    match ← peek with
    | (.finish, p) => fail close p
    | _ => pure ()
    discard (expect "," "to separate the items of this object map literal")
    return (s, e) :: (← fields n (s :: seen))
termination_by structural fuel => fuel

/-- The links behind an expression. -/
def linked : Nat → Expr → Reading Expr
  | 0, _ => failHere .tooDeep
  | n + 1, e => do
    match ← peek with
    | (.mark s, p) =>
      if s = "[" ∨ s = "?[" then
        discard next
        let i ← withBars true (expr n)
        match indexMistake? e i with
        | some text => fail (.badIndex text) i.start
        | none => pure ()
        discard (expect "]" "for a matching [ in this index expression")
        linked n (extend e (.index i p (s = "?[")))
      else if s = "." ∨ s = "?." then
        discard next
        match ← peek with
        | (.name t, q) =>
          discard next
          if ← accept "(" then
            linked n (extend e (.method t (← arguments n t) p q (s = "?.")))
          else linked n (extend e (.property t p q (s = "?.")))
        | (.reserved t, q) => fail (.reserved t) q
        | _ => failHere .propertyExpected
      else return e
    | _ => return e
termination_by structural fuel => fuel

/-- A closure behind its parameters. What it holds comes before its own parameters. -/
def closure : Nat → List String → Position → Reading Expr
  | 0, _, _ => failHere .tooDeep
  | n + 1, own, p => do
    let outside ← get
    modify fun r => { r with
      names := own.map fun s => (s, false)
      held := some [], inLoop := false, bars := true }
    let body ← statement n false
    let inside ← get
    let held := inside.held.getD []
    set { inside with
      names := outside.names, held := outside.held, inLoop := outside.inLoop, bars := outside.bars }
    held.forM fun (s, q) => noteName s q
    let name := "anon$" ++ toString p.line ++ "." ++ toString p.column
    modify fun r => { r with
      functions := r.functions ++ [⟨name, held.map (·.1) ++ own, body.toList, true⟩] }
    return .closure name held p
termination_by structural fuel => fuel

/-- The statements between braces. -/
def block : Nat → Reading (List Stmt)
  | 0 => failHere .tooDeep
  | n + 1 => do
    discard (expect "\x7b" "to start a statement block")
    local_ (withBars true (statements n))
termination_by structural fuel => fuel

/-- The statements up to the closing brace. -/
def statements : Nat → Reading (List Stmt)
  | 0 => failHere .tooDeep
  | n + 1 => do
    if ← accept "\x7d" then return []
    match ← peek with
    | (.finish, p) => fail (.missing "\x7d" "to terminate this block") p
    | _ => pure ()
    match ← statement n false with
    | none => statements n
    | some s =>
      if ← accept "\x7d" then return [s]
      if !s.endsItself then
        discard (expect ";" "to terminate this statement")
      return s :: (← statements n)
termination_by structural fuel => fuel

/-- A statement, or none for a semicolon. -/
def statement : Nat → Bool → Reading (Option Stmt)
  | 0, _ => failHere .tooDeep
  | n + 1, isGlobal => do
    match ← peek with
    | (.mark s, p) =>
      match s with
      | ";" => discard next; return none
      | "\x7b" => return some (.block (← block n) p)
      | "fn" | "private" =>
        if isGlobal then function n; return none
        else fail .nestedFunction p
      | "if" => return some (← branch n)
      | "switch" =>
        discard next
        let subject ← expr n
        discard (expect "\x7b" "to start a switch block")
        return some (.switch subject (← cases n false) p)
      | "while" =>
        discard next
        let e ← condition (← expr n)
        noAssignment
        return some (.while_ (some e) (← looped (block n)) p)
      | "loop" => discard next; return some (.while_ none (← looped (block n)) p)
      | "do" =>
        discard next
        let body ← looped (block n)
        let until_ ← sees "until"
        if until_ then discard next
        else discard (expect "while" "for the do statement")
        let e ← condition (← expr n)
        noAssignment
        return some (.repeat_ body e until_ p)
      | "for" => discard next; return some (← forLoop n p)
      | "break" =>
        if !(← get).inLoop then fail .outsideLoop p
        discard next
        return some (.break_ (← optional n) p)
      | "continue" =>
        if !(← get).inLoop then fail .outsideLoop p
        discard next
        return some (.continue_ p)
      | "return" => discard next; return some (.return_ (← optional n) p)
      | "throw" => discard next; return some (.throw_ (← optional n) p)
      | "try" => discard next; return some (← attempt n p)
      | "let" => discard next; return some (← declaration n false false p)
      | "const" => discard next; return some (← declaration n true false p)
      | "import" =>
        discard next
        let path ← expr n
        let newName ← if ← accept "as" then pure (some (← variableName).1) else pure none
        return some (.import_ path newName p)
      | "export" =>
        if !isGlobal then fail .nestedExport p
        discard next
        if ← accept "let" then return some (← declaration n false true p)
        if ← accept "const" then return some (← declaration n true true p)
        let (name, _) ← variableName
        let newName ← if ← accept "as" then pure (← variableName).1 else pure name
        return some (.export_ name newName p)
      | _ => return some (← assignmentOrValue n)
    | _ => return some (← assignmentOrValue n)
termination_by structural fuel => fuel

/-- An expression by itself or what is assigned to it. -/
def assignmentOrValue : Nat → Reading Stmt
  | 0 => failHere .tooDeep
  | n + 1 => do
    let e ← expr n
    let (t, p) ← peek
    match assignment? t with
    | some op => discard next; assigned op e (← expr n) p
    | none => return .expr e
termination_by structural fuel => fuel

/-- The value of a statement that may have one. -/
def optional : Nat → Reading (Option Expr)
  | 0 => failHere .tooDeep
  | n + 1 => do
    match ← peek with
    | (.finish, _) | (.mark ";", _) | (.mark "\x7d", _) => return none
    | _ => return some (← expr n)
termination_by structural fuel => fuel

/-- An `if` with what belongs to it. -/
def branch : Nat → Reading Stmt
  | 0 => failHere .tooDeep
  | n + 1 => do
    let (_, p) ← next
    let e ← condition (← expr n)
    noAssignment
    let yes ← block n
    if ← accept "else" then
      if ← sees "if" then return .branch e yes [← branch n] p
      else return .branch e yes (← block n) p
    else return .branch e yes [] p
termination_by structural fuel => fuel

/-- The cases of a switch up to the closing brace. -/
def cases : Nat → Bool → Reading (List Case)
  | 0, _ => failHere .tooDeep
  | n + 1, hasDefault => do
    let close := Mistake.missing "\x7d" "to end this switch block"
    if ← accept "\x7d" then return []
    match ← peek with
    | (.finish, p) => fail close p
    | (_, p) => if hasDefault then fail .defaultNotLast p
    let isDefault ← accept "_"
    let patterns ← if isDefault then pure none else do pure (some (← alternatives n))
    let guard ←
      if ← sees "if" then
        let (_, p) ← next
        if isDefault then fail .defaultCondition p
        pure (some (← condition (← expr n)))
      else pure none
    discard (expect "=>" "in this switch case")
    let body ← statement n false
    let finished := (body.map Stmt.endsItself).getD true
    let c := Case.mk patterns guard body.toList
    if ← accept "\x7d" then return [c]
    match ← peek with
    | (.finish, p) => fail close p
    | _ => pure ()
    if !(← accept ",") then
      if !finished then failHere (.missing "," "to separate the items in this switch block")
    return c :: (← cases n isDefault)
termination_by structural fuel => fuel

/-- The values of a case, with bars between them. -/
def alternatives : Nat → Reading (List Expr)
  | 0 => failHere .tooDeep
  | n + 1 => do
    let e ← withBars false (expr n)
    if ← accept "|" then return e :: (← alternatives n)
    else return [e]
termination_by structural fuel => fuel

/-- A `for` behind its word. -/
def forLoop : Nat → Position → Reading Stmt
  | 0, _ => failHere .tooDeep
  | n + 1, p => do
    let (item, counter) ←
      if ← accept "(" then
        let (item, _) ← variableName
        discard (expect "," "after the iteration variable name")
        let (counter, _) ← variableName
        discard (expect ")" "to close the iteration variable")
        pure (item, some counter)
      else do pure ((← variableName).1, none)
    discard (expect "in" "after the iteration variable")
    let e ← source (← expr n)
    let body ← local_ do
      counter.forM fun s => bring s false
      bring item false
      looped (block n)
    return .for_ item counter e body p
termination_by structural fuel => fuel

/-- A `try` behind its word. -/
def attempt : Nat → Position → Reading Stmt
  | 0, _ => failHere .tooDeep
  | n + 1, p => do
    let body ← block n
    discard (expect "catch" "for the 'try' statement")
    let caught ←
      if ← accept "(" then
        let (s, _) ← variableName
        discard (expect ")" "to enclose the catch variable")
        pure (some s)
      else pure none
    let handler ← local_ do
      caught.forM fun s => bring s false
      block n
    return .try_ body caught handler p
termination_by structural fuel => fuel

/-- A new variable behind its word. -/
def declaration : Nat → Bool → Bool → Position → Reading Stmt
  | 0, _, _, _ => failHere .tooDeep
  | n + 1, isConstant, exported, p => do
    let (s, _) ← variableName
    let value ← if ← accept "=" then pure (some (← expr n)) else pure none
    bring s isConstant
    return .declare isConstant s value exported p
termination_by structural fuel => fuel

/-- A function, which is kept aside. -/
def function : Nat → Reading Unit
  | 0 => failHere .tooDeep
  | n + 1 => do
    let isPrivate ← accept "private"
    let p ← expect "fn" "after 'private'"
    let name ← match ← peek with
      | (.name s, _) => discard next; pure s
      | (.reserved s, q) => fail (.reserved s) q
      | _ => failHere .noFunctionName
    if !(← accept "(") then failHere (.noParameters name)
    let own ← parameters name n []
    if !(← sees "\x7b") then failHere (.noFunctionBody name)
    let outside ← get
    modify fun r => { r with
      names := own.map fun s => (s, false)
      held := none, inLoop := false }
    let body ← block n
    modify fun r =>
      { r with names := outside.names, held := outside.held, inLoop := outside.inLoop }
    define ⟨name, own, body, isPrivate⟩ p
termination_by structural fuel => fuel

end

/-- The statements of a script up to its end. -/
def script : Nat → Reading (List Stmt)
  | 0 => failHere .tooDeep
  | n + 1 => do
    match ← peek with
    | (.finish, _) => return []
    | _ => pure ()
    match ← statement n true with
    | none => script n
    | some s =>
      match ← peek with
      | (.finish, _) => return [s]
      | _ => pure ()
      if !s.endsItself then discard (expect ";" "to terminate this statement")
      return s :: (← script n)

end Reader

/-- The script of a text. -/
def Script.ofText (text : String) : Except SyntaxFault Script :=
  let tokens := Token.ofText text
  match (Reader.script (12 * tokens.length + 20)).run { tokens } with
  | .ok (body, r) => .ok ⟨r.functions, body⟩
  | .error f => .error f

end ScriptHost.Rhai

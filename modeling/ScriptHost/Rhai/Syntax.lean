import ScriptHost.Rhai.Token
import ScriptHost.Rhai.Value

/-!
# Syntax

The tree of a script. Operators between values are calls of functions without a name of their
own; what is reached from a value by brackets and points is a chain of links.
-/

namespace ScriptHost.Rhai

mutual

/-- `name` has the modules that it is looked up in before it. A closure holds the values of
the variables outside of it by their names. -/
inductive Expr where
  | constant (v : Value) (place : Position)
  | template (parts : List Expr) (place : Position)
  | array (items : List Expr) (place : Position)
  | map (fields : List (String × Expr)) (place : Position)
  | name (modules : List String) (name : String) (start place : Position)
  | call (modules : List String) (function : String) (args : List Expr) (start place : Position)
  | operate (operator : String) (args : List Expr) (place : Position)
  | both (left right : Expr) (place : Position)
  | either (left right : Expr) (place : Position)
  | orElse (left right : Expr) (place : Position)
  | chain (root : Expr) (links : List Link)
  | statement (s : Stmt) (place : Position)
  | closure (function : String) (held : List (String × Position)) (place : Position)

/-- `mark` is the place of the bracket or point. An optional link ends the chain where the value
before it is the unit. -/
inductive Link where
  | index (i : Expr) (mark : Position) (optional : Bool)
  | property (name : String) (mark place : Position) (optional : Bool)
  | method (name : String) (args : List Expr) (mark place : Position) (optional : Bool)

/-- The values and ranges that a case of a switch is for; none for all others. -/
inductive Case where
  | mk (patterns : Option (List Expr)) (guard : Option Expr) (body : List Stmt)

inductive Stmt where
  | expr (e : Expr)
  | declare (isConstant : Bool) (name : String) (value : Option Expr) (exported : Bool)
      (place : Position)
  | assign (operator : Option String) (target value : Expr) (place : Position)
  | branch (condition : Expr) (yes no : List Stmt) (place : Position)
  | while_ (condition : Option Expr) (body : List Stmt) (place : Position)
  | repeat_ (body : List Stmt) (condition : Expr) (until_ : Bool) (place : Position)
  | for_ (item : String) (counter : Option String) (source : Expr) (body : List Stmt)
      (place : Position)
  | switch (subject : Expr) (cases : List Case) (place : Position)
  | break_ (value : Option Expr) (place : Position)
  | continue_ (place : Position)
  | return_ (value : Option Expr) (place : Position)
  | throw_ (value : Option Expr) (place : Position)
  | try_ (body : List Stmt) (caught : Option String) (handler : List Stmt) (place : Position)
  | import_ (path : Expr) (newName : Option String) (place : Position)
  | export_ (name newName : String) (place : Position)
  | block (body : List Stmt) (place : Position)

end

instance : Inhabited Expr := ⟨.constant .unit {}⟩
instance : Inhabited Stmt := ⟨.block [] {}⟩

/-- A function of a script. -/
structure Function where
  name : String
  parameters : List String
  body : List Stmt
  isPrivate : Bool := false

/-- A script: its functions and what it does. -/
structure Script where
  functions : List Function
  body : List Stmt
  deriving Inhabited

namespace Expr

/-- The place that messages about a value give. -/
def place : Expr → Position
  | .constant _ p | .template _ p | .array _ p | .map _ p | .name _ _ _ p | .call _ _ _ _ p
  | .operate _ _ p | .both _ _ p | .either _ _ p | .orElse _ _ p | .statement _ p
  | .closure _ _ p => p
  | .chain root links =>
    match links with
    | .index _ p _ :: _ | .property _ p _ _ :: _ | .method _ _ p _ _ :: _ => p
    | [] => root.place

/-- The place where an expression begins. -/
def start : Expr → Position
  | .operate _ (a :: _ :: _) _ => a.start
  | .both a _ _ | .either a _ _ | .orElse a _ _ => a.start
  | .chain root _ => root.start
  | .name _ _ p _ | .call _ _ _ p _ => p
  | e => e.place

end Expr

namespace Stmt

/-- Does a statement end without a semicolon? -/
def endsItself : Stmt → Bool
  | .branch .. | .while_ .. | .for_ .. | .switch .. | .try_ .. | .block .. => true
  | _ => false

end Stmt

end ScriptHost.Rhai

import ScriptHost.Rhai.Machine

/-!
# What scripts import

The paths after `import` in a script, read off its syntax.
-/

namespace ScriptHost.Rhai

/-- What stands after an `import`: a path, or none if it is known only when the script runs. -/
def Expr.importPath : Expr → Option String
  | .constant (.text s) _ => some s
  | _ => none

mutual

/-- The imports in an expression. -/
def Expr.imports : Expr → List (Option String)
  | .constant _ _ | .name _ _ _ _ | .closure _ _ _ => []
  | .template parts _ => importsOfAll parts
  | .array items _ => importsOfAll items
  | .map fields _ => importsOfFields fields
  | .call _ _ args _ _ => importsOfAll args
  | .operate _ args _ => importsOfAll args
  | .both a b _ | .either a b _ | .orElse a b _ => a.imports ++ b.imports
  | .chain root links => root.imports ++ importsOfLinks links
  | .statement s _ => s.imports
termination_by structural e => e

def importsOfAll : List Expr → List (Option String)
  | [] => []
  | e :: rest => e.imports ++ importsOfAll rest
termination_by structural es => es

def importsOfFields : List (String × Expr) → List (Option String)
  | [] => []
  | (_, e) :: rest => e.imports ++ importsOfFields rest
termination_by structural fields => fields

def Link.imports : Link → List (Option String)
  | .index i _ _ => i.imports
  | .property _ _ _ _ => []
  | .method _ args _ _ _ => importsOfAll args
termination_by structural l => l

def importsOfLinks : List Link → List (Option String)
  | [] => []
  | l :: rest => l.imports ++ importsOfLinks rest
termination_by structural ls => ls

def importsOfOption : Option Expr → List (Option String)
  | none => []
  | some e => e.imports
termination_by structural e => e

def importsOfPatterns : Option (List Expr) → List (Option String)
  | none => []
  | some es => importsOfAll es
termination_by structural e => e

def Case.imports : Case → List (Option String)
  | .mk patterns guard body =>
    importsOfPatterns patterns ++ importsOfOption guard ++ importsOfStatements body
termination_by structural c => c

def importsOfCases : List Case → List (Option String)
  | [] => []
  | c :: rest => c.imports ++ importsOfCases rest
termination_by structural cs => cs

/-- The imports in a statement. -/
def Stmt.imports : Stmt → List (Option String)
  | .expr e => e.imports
  | .declare _ _ value _ _ => importsOfOption value
  | .assign _ target value _ => target.imports ++ value.imports
  | .branch c yes no _ => c.imports ++ importsOfStatements yes ++ importsOfStatements no
  | .while_ c body _ => importsOfOption c ++ importsOfStatements body
  | .repeat_ body c _ _ => importsOfStatements body ++ c.imports
  | .for_ _ _ source body _ => source.imports ++ importsOfStatements body
  | .switch subject cases _ => subject.imports ++ importsOfCases cases
  | .break_ value _ | .return_ value _ | .throw_ value _ => importsOfOption value
  | .continue_ _ | .export_ _ _ _ => []
  | .try_ body _ handler _ => importsOfStatements body ++ importsOfStatements handler
  | .import_ path _ _ => path.importPath :: path.imports
  | .block body _ => importsOfStatements body
termination_by structural s => s

def importsOfStatements : List Stmt → List (Option String)
  | [] => []
  | s :: rest => s.imports ++ importsOfStatements rest
termination_by structural ss => ss

end

end ScriptHost.Rhai

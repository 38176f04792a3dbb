import ScriptHost.Rhai.Parser

/-!
# Failures

Why a script stops. A failure inside of a function or a module shows where that was called or
imported.
-/

namespace ScriptHost.Rhai

/-- What went wrong. -/
inductive Problem where
  | variableNotFound (name : String)
  | functionNotFound (signature : String)
  | moduleNotFound (path : String)
  | constantModified (name : String)
  | constantChanged (function : String)
  | noGetter (property type : String)
  | noSetter (property type : String)
  | itemBounds (length : Nat) (index : Int)
  | charBounds (length : Nat) (index : Int)
  | bitBounds (index : Int)
  | noIndexer (target index : String)
  | arithmetic (text : String)
  | dataType (wanted found : String)
  | notIterable
  | unboundThis
  | stackOverflow
  | malformed (f : SyntaxFault)
  | thrown (v : Value)
  | outOfSteps

namespace Problem

/-- Says that an index is beyond what is there. -/
def boundsText (what index one many container nothing : String) (length : Nat) : String :=
  what ++ " index " ++ index ++ " out of bounds: " ++
    (match length with
      | 0 => nothing ++ " is empty"
      | 1 => "only 1 " ++ one ++ " in " ++ container
      | n => "only " ++ toString n ++ " " ++ many ++ " in " ++ container)

def message : Problem → String
  | variableNotFound name => "Variable not found: " ++ name
  | functionNotFound signature => "Function not found: " ++ signature
  | moduleNotFound path => "Module not found: " ++ path
  | constantModified name => "Cannot modify constant " ++ name
  | constantChanged function =>
    "Non-pure method '" ++ function ++ "' cannot be called on a constant"
  | noGetter property type =>
    "Unknown property '" ++ property ++ "' - a getter is not registered for type '" ++ type ++ "'"
  | noSetter property type =>
    "Unknown property '" ++ property ++ "' - a setter is not registered for type '" ++ type ++ "'"
  | itemBounds length index =>
    boundsText "Array" (toString index) "element" "elements" "array" "array" length
  | charBounds length index =>
    boundsText "String" (toString index) "character" "characters" "string" "string" length
  | bitBounds index =>
    boundsText "Bit-field" (toString index) "bit" "bits" "bit-field" "bit-field" 64
  | noIndexer target index => "Indexer unavailable: " ++ target ++ " [" ++ index ++ "]"
  | arithmetic text => text
  | dataType wanted found => "Data type incorrect: " ++ found ++ " (expecting " ++ wanted ++ ")"
  | notIterable => "For loop expects iterable type"
  | unboundThis => "'this' not bound"
  | stackOverflow => "Stack overflow"
  | malformed f => f.message
  | thrown v =>
    match v with
    | .unit | .text "" => "Runtime error"
    | v => "Runtime error: " ++ v.plainText
  | outOfSteps => "Too many operations"

/-- The name of the kind of problem, which scripts see. -/
def kind : Problem → String
  | variableNotFound _ => "ErrorVariableNotFound"
  | functionNotFound _ => "ErrorFunctionNotFound"
  | moduleNotFound _ => "ErrorModuleNotFound"
  | constantModified _ => "ErrorAssignmentToConstant"
  | constantChanged _ => "ErrorNonPureMethodCallOnConstant"
  | noGetter _ _ | noSetter _ _ => "ErrorDotExpr"
  | itemBounds _ _ => "ErrorArrayBounds"
  | charBounds _ _ => "ErrorStringBounds"
  | bitBounds _ => "ErrorBitFieldBounds"
  | noIndexer _ _ => "ErrorIndexingType"
  | arithmetic _ => "ErrorArithmetic"
  | dataType _ _ => "ErrorMismatchDataType"
  | notIterable => "ErrorFor"
  | unboundThis => "ErrorUnboundThis"
  | stackOverflow => "ErrorStackOverflow"
  | malformed _ => "ErrorParsing"
  | thrown _ => "ErrorRuntime"
  | outOfSteps => "ErrorTooManyOperations"

/-- The details that scripts see of a problem. -/
def details : Problem → List (String × Value)
  | variableNotFound name | constantModified name => [("variable", .text name)]
  | functionNotFound signature => [("function", .text signature)]
  | constantChanged function => [("function", .text function)]
  | moduleNotFound path => [("module", .text path)]
  | itemBounds length index | charBounds length index =>
    [("length", .int (.ofNat length)), ("index", .int (.ofInt index))]
  | bitBounds index => [("length", .int 64), ("index", .int (.ofInt index))]
  | dataType wanted found => [("requested", .text wanted), ("actual", .text found)]
  | _ => []

/-- Can a script catch the problem? -/
def isCatchable : Problem → Bool
  | stackOverflow | malformed _ | outOfSteps => false
  | _ => true

end Problem

/-- A problem with its place, and the calls and imports around it. -/
inductive Failure where
  | plain (problem : Problem) (place : Option Position)
  | inCall (function source : String) (inner : Failure) (place : Position)
  | inModule (path : String) (inner : Failure) (place : Position)

namespace Failure

/-- The problem at the bottom. -/
def problem : Failure → Problem
  | .plain p _ => p
  | .inCall _ _ inner _ | .inModule _ inner _ => inner.problem

def place? : Failure → Option Position
  | .plain _ p => p
  | .inCall _ _ _ p | .inModule _ _ p => some p

def placeText : Option Position → String
  | none => ""
  | some p => " (" ++ p.text ++ ")"

/-- What is said of a call or an import behind what failed in it. -/
def callText (function source : String) : String :=
  "\nin call to function '" ++ function ++ "'" ++
    (if source = "" then "" else " @ '" ++ source ++ "'")

def importText (path : String) : String := "\nin module '" ++ path ++ "'"

def message : Failure → String
  | .plain p place => p.message ++ placeText place
  | .inCall function source inner place =>
    message inner ++ callText function source ++ placeText (some place)
  | .inModule path inner place => message inner ++ importText path ++ placeText (some place)

/-- What is said of a failure without its own place. -/
def headless : Failure → String
  | .plain p _ => p.message
  | .inCall function source inner _ => message inner ++ callText function source
  | .inModule path inner _ => message inner ++ importText path

/-- The failure with another place of its own. -/
def movedTo (p : Position) : Failure → Failure
  | .plain problem _ => .plain problem (some p)
  | .inCall f s inner _ => .inCall f s inner p
  | .inModule path inner _ => .inModule path inner p

/-- What a script finds when it catches a failure. -/
def caught (source : Option String) (f : Failure) : Value :=
  match f.problem with
  | .thrown v => v
  | problem =>
    let (kind, details) := match f with
      | .plain p _ => (p.kind, p.details)
      | .inCall function s _ _ =>
        ("ErrorInFunctionCall", [("function", .text function), ("source", .text s)])
      | .inModule path _ _ => ("ErrorInModule", [("module", .text path)])
    let places := match f.place? with
      | some p =>
        [("line", Value.int (.ofNat p.line)), ("position", .int (.ofNat p.column))]
      | none => []
    .map (Json.sortFields ([("message", .text f.headless)] ++
      (source.map fun s => ("source", Value.text s)).toList ++ places ++
      [("error", .text kind)] ++ (if problem.isCatchable then details else [])))

end Failure

end ScriptHost.Rhai

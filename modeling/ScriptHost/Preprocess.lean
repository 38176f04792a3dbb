import ScriptHost.Text.Blank

/-!
# Conditional lines

A source can hold lines that are kept only for some hosts. The conditions stand in line
comments, so the source is valid as it is: a line that begins with `;;#if NAME` or
`;;#if !NAME` opens a branch, `;;#else` turns to its complement, `;;#endif` closes it.
Lines that are not selected, and the directives themselves, become empty lines, so that
every line keeps its number.
-/

namespace ScriptHost.Preprocess

inductive Directive where
  | opening (word : List Char)
  | otherwise
  | closing
  deriving DecidableEq

/-- The directive that a line holds, if it is one. -/
def directive? (line : List Char) : Option Directive :=
  match Text.dropBlanks line with
  | ';' :: ';' :: '#' :: rest =>
    match Text.words rest with
    | ['i', 'f'] :: words => some (.opening (words.headD []))
    | ['e', 'l', 's', 'e'] :: _ => some .otherwise
    | ['e', 'n', 'd', 'i', 'f'] :: _ => some .closing
    | _ => none
  | _ => none

inductive Error where
  | missingSymbol (line : Nat)
  | strayElse (line : Nat)
  | duplicateElse (line : Nat)
  | strayEndif (line : Nat)
  | unterminated (line : Nat)
  deriving DecidableEq

def Error.message : Error → String
  | .missingSymbol line => "line " ++ toString line ++ ": \x60;;#if\x60 without a symbol"
  | .strayElse line =>
    "line " ++ toString line ++ ": \x60;;#else\x60 without a matching \x60;;#if\x60"
  | .duplicateElse line => "line " ++ toString line ++ ": duplicate \x60;;#else\x60"
  | .strayEndif line =>
    "line " ++ toString line ++ ": \x60;;#endif\x60 without a matching \x60;;#if\x60"
  | .unterminated line => "line " ++ toString line ++ ": \x60;;#if\x60 is never closed"

/-- A condition: a name that is to be defined, or not defined if `negated`. -/
structure Condition where
  negated : Bool
  name : List Char

/-- The condition of a word: a first exclamation mark negates. -/
def Condition.ofWord : List Char → Condition
  | '!' :: name => ⟨true, name⟩
  | name => ⟨false, name⟩

def Condition.holds (defines : List String) (c : Condition) : Bool :=
  (defines.contains (String.ofList c.name)) != c.negated

/-- A branch that is open: the line of its opening, whether the lines around it are
selected, its condition, and whether its complement has begun. -/
structure Branch where
  line : Nat
  enclosing : Bool
  condition : Bool
  complement : Bool

def Branch.selected (b : Branch) : Bool := b.enclosing && b.condition != b.complement

/-- Are lines selected inside the open branches, the innermost first? -/
def selected : List Branch → Bool
  | [] => true
  | b :: _ => b.selected

/-- What a line leaves behind: the open branches after it and its text in the result. -/
def step (defines : List String) (number : Nat) (line : List Char) (branches : List Branch) :
    Except Error (List Branch × List Char) :=
  match directive? line with
  | some (.opening word) =>
    let c := Condition.ofWord word
    if c.name = [] then .error (.missingSymbol number)
    else .ok (⟨number, selected branches, c.holds defines, false⟩ :: branches, [])
  | some .otherwise =>
    match branches with
    | [] => .error (.strayElse number)
    | b :: outer =>
      if b.complement then .error (.duplicateElse number)
      else .ok ({ b with complement := true } :: outer, [])
  | some .closing =>
    match branches with
    | [] => .error (.strayEndif number)
    | _ :: outer => .ok (outer, [])
  | none => .ok (branches, if selected branches then line else [])

/-- Goes through the lines from number `number` on. -/
def expandLines (defines : List String) (number : Nat) (branches : List Branch) :
    List (List Char) → Except Error (List (List Char))
  | [] =>
    match branches with
    | [] => .ok []
    | b :: _ => .error (.unterminated b.line)
  | line :: rest => do
    let (branches, text) ← step defines number line branches
    let texts ← expandLines defines (number + 1) branches rest
    return text :: texts

/-- The source with only the lines that are selected when `defines` are the names defined. -/
def expand (defines : List String) (source : String) : Except Error String := do
  let lines ← expandLines defines 1 [] (Text.splitOnChar '\n' source.toList)
  return String.ofList (Text.joinWith '\n' lines)

end ScriptHost.Preprocess

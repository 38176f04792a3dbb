import ScriptHost.Decimal.Double
import ScriptHost.Text.Blank
import ScriptHost.Text.Digit

/-!
# Tokens

The text of a script as a list of tokens with their places. A template, a text in back quotes,
is cut at the blocks in it; the tokens of a block stand between its parts. A mistake inside a
token is a token as well, so that it counts only once everything before it has been read.
-/

namespace ScriptHost.Rhai

/-- The place of a character, counted from one. -/
structure Position where
  line : Nat := 1
  column : Nat := 1
  deriving DecidableEq

namespace Position

instance : Inhabited Position := ⟨{}⟩

/-- The place after a character. -/
def after (p : Position) (c : Char) : Position :=
  if c = '\n' then ⟨p.line + 1, 1⟩ else ⟨p.line, p.column + 1⟩

/-- The place after some characters. -/
def afterAll (p : Position) (cs : List Char) : Position := cs.foldl after p

def text (p : Position) : String :=
  "line " ++ toString p.line ++ ", position " ++ toString p.column

end Position

/-- A mistake inside a token. -/
inductive LexFault where
  | unexpected (text : String)
  | unterminated
  | badEscape (text : String)
  | badNumber (text : String)
  | badCharacter (text : String)
  | badName (text : String)
  | badSymbol (hint : String)
  deriving DecidableEq

def LexFault.message : LexFault → String
  | .unexpected text => "Unexpected '" ++ text ++ "'"
  | .unterminated => "Open string is not terminated"
  | .badEscape text => "Invalid escape sequence: '" ++ text ++ "'"
  | .badNumber text => "Invalid number: '" ++ text ++ "'"
  | .badCharacter text => "Invalid character: '" ++ text ++ "'"
  | .badName text => "Variable name is not proper: '" ++ text ++ "'"
  | .badSymbol hint => hint

/-- A `text` is a whole string or the end of a template, a `part` what stands in a template
before a block. Words that mean something and symbols are marks. -/
inductive Token where
  | int (n : Int64)
  | float (x : Float)
  | char (c : Char)
  | text (s : String)
  | part (s : String)
  | name (s : String)
  | reserved (s : String)
  | mark (s : String)
  | fault (f : LexFault)
  | finish

namespace Token

instance : Inhabited Token := ⟨.finish⟩

/-- The words that mean something. -/
def words : List String :=
  ["true", "false", "let", "const", "if", "else", "switch", "do", "while", "until", "loop", "for",
    "in", "continue", "break", "return", "throw", "try", "catch", "fn", "private", "import",
    "export", "as"]

/-- The words that are kept free. -/
def reservedWords : List String :=
  ["public", "protected", "super", "new", "use", "module", "package", "var", "static", "shared",
    "with", "is", "goto", "match", "case", "default", "void", "null", "nil", "spawn", "thread",
    "go", "sync", "async", "await", "yield"]

/-- The names of functions that no variable can have. -/
def functionWords : List String :=
  ["print", "debug", "type_of", "eval", "Fn", "call", "curry", "is_def_fn", "is_def_var",
    "is_shared"]

/-- The symbols, each before those that it begins with. -/
def symbols : List String :=
  ["<<=", ">>=", "**=", "..=", "===", "!==", "::<", "...", "+=", "-=", "*=", "/=", "%=", "**",
    "<<", ">>", "&=", "|=", "^=", "==", "!=", "<=", ">=", "&&", "||", "??", "?.", "?[", "::", "=>",
    "..", "#\x7b", "++", "--", "->", "<-", "(*", "*)", ":=", ":;", "|>", "<|", "#!", "+", "-", "*",
    "/", "%", "&", "|", "^", "=", "!", "<", ">", "(", ")", "[", "]", "\x7b", "\x7d", ",", ";", ":",
    ".", "?", "#", "@", "$", "~"]

def pascalHint : String :=
  "'(* .. *)' is not a valid comment format. This is not Pascal! Should it be '/* .. */'?"

/-- What a symbol of another language should have been. -/
def hints : List (String × String) :=
  [("===", "'===' is not a valid operator. This is not JavaScript! Should it be '=='?"),
    ("!==", "'!==' is not a valid operator. This is not JavaScript! Should it be '!='?"),
    ("->", "'->' is not a valid symbol. This is not C or C++!"),
    ("<-", "'<-' is not a valid symbol. This is not Go! Should it be '<='?"),
    (":=", "':=' is not a valid assignment operator. This is not Go or Pascal! " ++
      "Should it be simply '='?"),
    ("::<", "'::<>' is not a valid symbol. This is not Rust! Should it be '::'?"),
    ("(*", pascalHint), ("*)", pascalHint)]

/-- The symbols that mean nothing. -/
def reservedSymbols : List String :=
  ["?", "...", ":;", "++", "--", "|>", "<|", "#!", "#", "@", "$", "~"]

/-- The token of a symbol. -/
def ofSymbol (s : String) : Token :=
  match hints.lookup s with
  | some hint => .fault (.badSymbol hint)
  | none => if reservedSymbols.contains s then .reserved s else .mark s

def isNameStart (c : Char) : Bool := c.isAlpha || c = '_'
def isNameChar (c : Char) : Bool := c.isAlphanum || c = '_'

/-- Does a text of name characters begin with a letter, underscores aside? -/
def isName (s : String) : Bool :=
  match s.toList.dropWhile (· = '_') with
  | c :: _ => c.isAlpha
  | [] => false

/-- The token of a word. -/
def ofWord (s : String) : Token :=
  if words.contains s then .mark s
  else if reservedWords.contains s then .reserved s
  else if s = "_" then .mark s
  else if isName s then .name s
  else .fault (.badName s)

/-- Is a sign after the token one between two operands? -/
def endsOperand : Token → Bool
  | .int _ | .float _ | .char _ | .text _ | .name _ | .reserved _ => true
  | .mark s => [")", "]", "\x7d", "true", "false"].contains s
  | _ => false

/-! ## Texts -/

/-- The number of digits of an escape. -/
def escapeLength? (c : Char) : Option Nat :=
  if c = 'x' then some 2 else if c = 'u' then some 4 else if c = 'U' then some 8 else none

/-- The characters of a list of hexadecimal digits, as far as they are such, and its value. -/
def hexPrefix : List Char → List Char × Nat
  | cs => (cs.takeWhile fun c => (Text.hexValue? c).isSome,
      (cs.takeWhile fun c => (Text.hexValue? c).isSome).foldl
        (fun n c => 16 * n + (Text.hexValue? c).getD 0) 0)

/-- What the short escapes stand for. -/
def shortEscape? (c : Char) : Option Char :=
  [('\\', '\\'), ('t', '\t'), ('n', '\n'), ('r', '\r')].lookup c

/-- What has been read of a text: the characters, and the text and place behind it. -/
structure Reading where
  chars : List Char
  rest : List Char
  place : Position

/-- The characters up to a closing quote. `start` is the place of the opening one; the line
continues after a backslash at its end, from the column of that place on. -/
def quoted (close : Char) (start : Position) :
    Nat → List Char → Position → Nat → List Char → Except (LexFault × Position) Reading
  | 0, _, _, _, _ => .error (.unterminated, start)
  | fuel + 1, cs, p, skip, acc =>
    match cs with
    | [] => .error (.unterminated, start)
    | '\\' :: c :: rest =>
      let q := (p.after '\\').after c
      if c = close then quoted close start fuel rest q 0 (c :: acc)
      else if c = '\n' then
        if close = '"' then quoted close start fuel rest q (start.column + 1) acc
        else .error (.unterminated, start)
      else
        match shortEscape? c, escapeLength? c with
        | some e, _ => quoted close start fuel rest q 0 (e :: acc)
        | none, some n =>
          let (digits, value) := hexPrefix (rest.take n)
          let bad (length : Nat) : Except (LexFault × Position) Reading :=
            let seen := rest.take length
            .error (.badEscape (String.ofList ('\\' :: c :: seen)),
              (p.after '\\').afterAll seen)
          if digits.length < n then bad (digits.length + 1)
          else if h : value.isValidChar then
            quoted close start fuel (rest.drop n) (q.afterAll digits) 0
              (Char.ofNatAux value h :: acc)
          else bad n
        | none, none => .error (.badEscape (String.ofList ['\\', c]), p.after '\\')
    | c :: rest =>
      if c = close then
        match rest with
        | d :: more =>
          if d = close then quoted close start fuel more ((p.after c).after d) 0 (c :: acc)
          else .ok ⟨acc.reverse, rest, p.after c⟩
        | [] => .ok ⟨acc.reverse, rest, p.after c⟩
      else if c = '\n' then .error (.unterminated, start)
      else if c = '\r' ∧ rest.head? = some '\n' then
        quoted close start fuel rest (p.after c) skip acc
      else if Text.isBlank c ∧ p.column < skip then
        quoted close start fuel rest (p.after c) skip acc
      else quoted close start fuel rest (p.after c) 0 (c :: acc)

/-- The characters of a template up to its end or to a block, which is still to be read. -/
def templatePart (start : Position) :
    List Char → Position → List Char → Except (LexFault × Position) (Reading × Bool)
  | [], _, _ => .error (.unterminated, start)
  | '\x60' :: '\x60' :: rest, p, acc =>
    templatePart start rest ((p.after '\x60').after '\x60') ('\x60' :: acc)
  | '\x60' :: rest, p, acc => .ok (⟨acc.reverse, rest, p.after '\x60'⟩, false)
  | '$' :: '\x7b' :: rest, p, acc => .ok (⟨acc.reverse, '\x7b' :: rest, p.after '$'⟩, true)
  | c :: rest, p, acc => templatePart start rest (p.after c) (c :: acc)

/-- The text of a template without a line end at its very start. -/
def withoutLineEnd : List Char → List Char
  | '\r' :: '\n' :: rest => rest
  | '\n' :: rest => rest
  | cs => cs

/-! ## Numbers -/

/-- Digits without the underscores between them, and the number of characters taken. -/
def digitRun (isDigit : Char → Bool) (cs : List Char) : List Char × Nat :=
  let run := cs.takeWhile fun c => isDigit c || c = '_'
  (run.filter (· ≠ '_'), run.length)

/-- The base that a letter after a zero stands for. -/
def base? (c : Char) : Option Nat :=
  [('x', 16), ('X', 16), ('o', 8), ('O', 8), ('b', 2), ('B', 2)].lookup c

def isDigitOf (base : Nat) (c : Char) : Bool :=
  match Text.hexValue? c with
  | some n => n < base
  | none => false

/-- The double of a decimal numeral. -/
def decimal (negative : Bool) (whole fraction : List Char) (exponent : Int) : Float :=
  let mantissa := Text.digitsValue (whole ++ fraction)
  if mantissa = 0 then Double.ofRatio negative ⟨0, 1⟩
  else
    let bound : Int := 2000 + (whole.length + fraction.length : Nat)
    match max (-bound) (min bound (exponent - fraction.length)) with
    | .ofNat k => Double.ofRatio negative ⟨mantissa * Nat.pow 10 k, 1⟩
    | .negSucc k => Double.ofRatio negative ⟨mantissa, Nat.pow 10 (k + 1)⟩

/-- An exponent: `e`, an optional sign and digits; its value and length. -/
def exponent? : List Char → Option (Int × Nat)
  | 'e' :: '+' :: cs =>
    let (ds, n) := digitRun Char.isDigit cs
    some (Text.digitsValue ds, n + 2)
  | 'e' :: '-' :: cs =>
    let (ds, n) := digitRun Char.isDigit cs
    some (-(Text.digitsValue ds : Int), n + 2)
  | 'e' :: cs =>
    match cs with
    | c :: _ =>
      if c.isDigit then
        let (ds, n) := digitRun Char.isDigit cs
        some (Text.digitsValue ds, n + 1)
      else none
    | [] => none
  | _ => none

/-- A fraction after a point: its digits and length. The point belongs to the number unless it
begins a range or the name of a property. -/
def fraction? : List Char → Option (List Char × Nat)
  | '.' :: cs =>
    match cs with
    | c :: _ =>
      if c.isDigit then
        let (ds, n) := digitRun Char.isDigit cs
        some (ds, n + 1)
      else if c = '_' ∨ c = '.' ∨ isNameStart c then none
      else some ([], 1)
    | [] => none
  | _ => none

/-- A whole number that fits is an integer, any other number a float. -/
def wholeNumber (negative : Bool) (ds : List Char) : Token :=
  let n : Int := if negative then -(Text.digitsValue ds : Int) else Text.digitsValue ds
  if Int64.minValue.toInt ≤ n ∧ n ≤ Int64.maxValue.toInt then .int (.ofInt n)
  else .float (decimal negative ds [] 0)

/-- The number that a text begins with, and its length. -/
def number (negative : Bool) (cs : List Char) : Token × Nat :=
  let based := match cs with
    | '0' :: c :: rest => (base? c).map fun base => (base, rest)
    | _ => none
  match based with
  | some (base, rest) =>
    let (ds, n) := digitRun (isDigitOf base) rest
    let value := ds.foldl (fun n c => base * n + (Text.hexValue? c).getD 0) 0
    let token :=
      if ds = [] ∨ UInt64.size ≤ value then .fault (.badNumber (String.ofList (cs.take (n + 2))))
      else
        let v : Int64 := .ofNat value
        .int (if negative then -v else v)
    (token, n + 2)
  | none =>
    let (whole, n) := digitRun Char.isDigit cs
    let fraction := fraction? (cs.drop n)
    let m := n + (fraction.map (·.2)).getD 0
    match exponent? (cs.drop m), fraction with
    | some (e, k), fraction =>
      (.float (decimal negative whole ((fraction.map (·.1)).getD []) e), m + k)
    | none, some (ds, _) => (.float (decimal negative whole ds 0), m)
    | none, none => (wholeNumber negative whole, n)

/-! ## Scripts -/

/-- What stands behind a comment between marks, which may hold others, and its place. -/
def afterComment : Nat → List Char → Position → List Char × Position
  | 0, cs, p => (cs, p)
  | _, [], p => ([], p)
  | n + 1, '*' :: '/' :: rest, p => afterComment n rest ((p.after '*').after '/')
  | n + 1, '/' :: '*' :: rest, p => afterComment (n + 2) rest ((p.after '/').after '*')
  | n + 1, c :: rest, p => afterComment (n + 1) rest (p.after c)

/-- The blocks of templates that are open, each with the number of braces that are open in
it. -/
abbrev Nest := List Nat

def Nest.opened : Nest → Nest
  | n :: rest => (n + 1) :: rest
  | [] => []

/-- The tokens from a place on. `unary` says that a sign begins an operand there. -/
def scan : Nat → List Char → Position → Bool → Nest → List (Token × Position)
  | 0, _, p, _, _ => [(.finish, p)]
  | _, [], p, _, _ => [(.finish, p)]
  | fuel + 1, c :: rest, p, unary, nest =>
    let emit (t : Token) (length : Nat) (nest : Nest) : List (Token × Position) :=
      (t, p) :: scan fuel ((c :: rest).drop length) (p.afterAll ((c :: rest).take length))
        (!t.endsOperand) nest
    let broken (f : LexFault) (q : Position) : List (Token × Position) := [(.fault f, q)]
    let template (start : Position) (cs : List Char) (q : Position) (nest : Nest) :
        List (Token × Position) :=
      match templatePart start cs q [] with
      | .error (f, q) => broken f q
      | .ok (r, isPart) =>
        let s := String.ofList r.chars
        if isPart then (.part s, start) :: scan fuel r.rest r.place true (0 :: nest)
        else (.text s, start) :: scan fuel r.rest r.place false nest
    if Text.isBlank c then scan fuel rest (p.after c) unary nest
    else if c = '/' ∧ rest.head? = some '/' then
      let line := (c :: rest).takeWhile (· ≠ '\n')
      scan fuel ((c :: rest).drop line.length) (p.afterAll line) unary nest
    else if c = '/' ∧ rest.head? = some '*' then
      let (rest, q) := afterComment 1 rest.tail ((p.after '/').after '*')
      scan fuel rest q unary nest
    else if c = '"' then
      match quoted '"' p (rest.length + 1) rest (p.after c) 0 [] with
      | .error (f, q) => broken f q
      | .ok r => (.text (String.ofList r.chars), p) :: scan fuel r.rest r.place false nest
    else if c = '\'' then
      match quoted '\'' p (rest.length + 1) rest (p.after c) 0 [] with
      | .error (f, q) => broken f q
      | .ok r =>
        match r.chars with
        | [ch] => (.char ch, p) :: scan fuel r.rest r.place false nest
        | chars => broken (.badCharacter (String.ofList chars)) p
    else if c = '\x60' then
      let body := withoutLineEnd rest
      template p body ((p.after c).afterAll (rest.take (rest.length - body.length))) nest
    else if c.isDigit then
      let (t, n) := number false (c :: rest)
      emit t n nest
    else if c = '-' ∧ unary ∧ (rest.head?.map Char.isDigit).getD false then
      let (t, n) := number true rest
      emit t (n + 1) nest
    else if isNameStart c then
      let word := (c :: rest).takeWhile isNameChar
      emit (ofWord (String.ofList word)) word.length nest
    else if c = '\x7d' then
      match nest with
      | 1 :: outer => (.mark "\x7d", p) :: template p rest (p.after c) outer
      | n :: outer => emit (.mark "\x7d") 1 ((n - 1) :: outer)
      | [] => emit (.mark "\x7d") 1 []
    else if (c :: rest.take 2) = "!in".toList ∧
        !((rest.drop 2).head?.map isNameChar).getD false then
      emit (.mark "!in") 3 nest
    else
      match symbols.find? fun s => s.toList.isPrefixOf (c :: rest) with
      | some s =>
        emit (ofSymbol s) s.length (if s = "\x7b" ∨ s = "#\x7b" then nest.opened else nest)
      | none => broken (.unexpected c.toString) p

/-- The tokens of a script. -/
def ofText (s : String) : List (Token × Position) :=
  let cs := s.toList
  scan (cs.length + 1) cs {} true []

/-- How a message shows a token. -/
def shown : Token → String
  | .int n => toString n.toInt
  | .float _ => "float"
  | .char c => c.toString
  | .text s | .part s | .name s | .reserved s | .mark s => s
  | .fault f => f.message
  | .finish => ""

end Token

end ScriptHost.Rhai

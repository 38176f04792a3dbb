import ScriptHost.Lua.Number

/-!
# Tokens

The text of a script as a list of tokens, each with the line that it ends on and, where
messages show it, the text that it was written as. A mistake inside a token is a token as
well, the last one, so that it counts only once everything before it has been read.
-/

namespace ScriptHost.Lua

/-- A message of the reader: what is wrong, the line, and what it was found near. -/
structure SyntaxError where
  line : Nat
  message : Bytes
  deriving DecidableEq

inductive Lexeme where
  | name (name : Bytes)
  | reserved (word : String)
  | mark (text : String)
  | string (text : Bytes)
  | number (n : Number)
  | byte (b : UInt8)
  | finish
  | broken (error : SyntaxError)

/-- `written` is the text of a name, string or number. -/
structure Token where
  lexeme : Lexeme
  line : Nat
  written : Bytes := []

instance : Inhabited Token := ⟨{ lexeme := .finish, line := 1 }⟩

namespace Token

/-- The words that are no names. -/
def reservedWords : List String :=
  ["and", "break", "do", "else", "elseif", "end", "false", "for", "function", "goto", "if", "in",
    "local", "nil", "not", "or", "repeat", "return", "then", "true", "until", "while"]

/-- The marks of more than one byte, each before those that it begins with. -/
def longMarks : List String :=
  ["...", "..", "==", ">=", ">>", "<=", "<<", "~=", "//", "::"]

/-- How a message shows a token. -/
def shown (t : Token) : Bytes :=
  match t.lexeme with
  | .name _ | .string _ | .number _ => quoted t.written
  | .reserved word | .mark word => quoted word
  | .byte b =>
    if Bytes.isPrintable b then quoted [b]
    else quoted ("<\\" ++ toString b.toNat ++ ">" : String)
  | .finish | .broken _ => "<eof>"
where
  quoted (bs : Bytes) : Bytes := 39 :: bs.takeWhile (· ≠ 0) ++ [39]

/-! ## Reading -/

/-- What is left of a text, and the number of its line. -/
structure Source where
  rest : Bytes
  line : Nat

/-- A mistake near what has been read of a token. -/
def fault (line : Nat) (message : Bytes) (near : Bytes) : Lexeme :=
  .broken ⟨line, message ++ " near " ++ near⟩

def faultAt (line : Nat) (message : Bytes) (read : Bytes) : Lexeme :=
  fault line message (shown.quoted read)

/-- Skips one line end, of one byte or two different ones. -/
def skipLineEnd (rest : Bytes) : Bytes :=
  match rest with
  | 10 :: 13 :: rest | 13 :: 10 :: rest => rest
  | _ :: rest => rest
  | [] => []

def isLineEnd (b : UInt8) : Bool := b == 10 || b == 13

/-- The level of a long bracket: after `[` or `]`, some `=` and the same bracket again. -/
def bracketLevel? (bracket : UInt8) (rest : Bytes) : Option Nat :=
  let level := (rest.takeWhile (· == 61)).length
  match rest.drop level with
  | b :: _ => if b = bracket then some level else none
  | [] => none

/-- The text up to the closing long bracket of a level, with every line end as one line feed;
what follows it, and the line there. None if the text ends before. -/
def longText? (level : Nat) : Nat → Source → Option (Bytes × Source)
  | 0, _ => none
  | fuel + 1, s =>
    match s.rest with
    | [] => none
    | b :: rest =>
      if b = 93 ∧ bracketLevel? 93 rest = some level then
        some ([], { s with rest := rest.drop (level + 1) })
      else if isLineEnd b then
        (longText? level fuel ⟨skipLineEnd s.rest, s.line + 1⟩).map fun (text, s) => (10 :: text, s)
      else (longText? level fuel { s with rest }).map fun (text, s) => (b :: text, s)

/-- How many lines begin in the text. -/
def lineCount : Nat → Bytes → Nat
  | 0, _ => 0
  | _, [] => 0
  | fuel + 1, b :: rest =>
    if isLineEnd b then 1 + lineCount fuel (skipLineEnd (b :: rest)) else lineCount fuel rest

/-- The text after an opening long bracket, without a line end at its beginning. -/
def longBracket (what : String) (level : Nat) (s : Source) : Except Lexeme (Bytes × Source) :=
  let from_ : Source := match s.rest with
    | b :: _ => if isLineEnd b then ⟨skipLineEnd s.rest, s.line + 1⟩ else s
    | [] => s
  match longText? level (from_.rest.length + 1) from_ with
  | some found => .ok found
  | none =>
    let last := s.line + lineCount s.rest.length s.rest
    let message := "unfinished long " ++ what ++ " (starting at line " ++ toString s.line ++ ")"
    .error (fault last message "<eof>")

/-- One escape of a string: after the backslash, the bytes it stands for and how many bytes
it is written with. A mistake has a message and the bytes that it was noticed after. -/
def escape (rest : Bytes) : Except (Bytes × Nat) (Bytes × Nat) :=
  match rest with
  | 97 :: _ => .ok ([7], 1)
  | 98 :: _ => .ok ([8], 1)
  | 102 :: _ => .ok ([12], 1)
  | 110 :: _ => .ok ([10], 1)
  | 114 :: _ => .ok ([13], 1)
  | 116 :: _ => .ok ([9], 1)
  | 118 :: _ => .ok ([11], 1)
  | 120 :: ds =>
    match ds with
    | a :: b :: _ =>
      match Bytes.hexValue? a, Bytes.hexValue? b with
      | some x, some y => .ok ([(16 * x + y).toUInt8], 3)
      | some _, none => .error ("hexadecimal digit expected", 3)
      | none, _ => .error ("hexadecimal digit expected", 2)
    | _ => .error ("hexadecimal digit expected", 2)
  | 117 :: 123 :: ds =>
    let digits := ds.takeWhile Bytes.isHexDigit
    let after := ds.drop digits.length
    let tooLarge := (List.range digits.length).find? fun k =>
      Number.digitsValue 16 (digits.take (k + 1)) ≥ Nat.pow 2 31
    match digits, tooLarge, after with
    | [], _, _ => .error ("hexadecimal digit expected", 3)
    | _, some k, _ => .error ("UTF-8 value too large", k + 3)
    | _, none, 125 :: _ =>
      .ok (Bytes.ofCodePoint (Number.digitsValue 16 digits), digits.length + 3)
    | _, none, _ => .error ("missing '\x7d'", digits.length + 3)
  | 117 :: _ => .error ("missing '\x7b'", 2)
  | b :: _ =>
    if b = 92 ∨ b = 34 ∨ b = 39 then .ok ([b], 1)
    else if Bytes.isDigit b then
      let digits := (rest.take 3).takeWhile Bytes.isDigit
      let n := Number.digitsValue 10 digits
      if n < 256 then .ok ([n.toUInt8], digits.length)
      else .error ("decimal escape too large", digits.length + 1)
    else .error ("invalid escape sequence", 1)
  | [] => .error ("invalid escape sequence", 0)

/-- The bytes of a short string up to its quote, after `read` bytes of it in reverse. -/
def shortString (quote : UInt8) : Nat → Bytes → Source → Except Lexeme (Bytes × Source)
  | 0, _, s => .error (fault s.line "unfinished string" "<eof>")
  | fuel + 1, read, s =>
    match s.rest with
    | [] => .error (fault s.line "unfinished string" "<eof>")
    | 92 :: rest =>
      match rest with
      | [] => .error (fault s.line "unfinished string" "<eof>")
      | 122 :: rest =>
        let blanks := rest.takeWhile Bytes.isBlank
        let line := s.line + lineCount blanks.length blanks
        shortString quote fuel read ⟨rest.drop blanks.length, line⟩
      | b :: _ =>
        if isLineEnd b then
          (shortString quote fuel (10 :: read) ⟨skipLineEnd rest, s.line + 1⟩).map
            fun (text, s) => (10 :: text, s)
        else
          match escape rest with
          | .ok (bytes, length) =>
            (shortString quote fuel (bytes.reverse ++ read) { s with rest := rest.drop length }).map
              fun (text, s) => (bytes ++ text, s)
          | .error (message, length) =>
            .error (faultAt s.line message (read.reverse ++ 92 :: rest.take length))
    | b :: rest =>
      if b = quote then .ok ([], { s with rest })
      else if isLineEnd b then .error (faultAt s.line "unfinished string" read.reverse)
      else
        (shortString quote fuel (b :: read) { s with rest }).map fun (text, s) => (b :: text, s)

/-- The digits and points of a numeral, with a sign after the mark of an exponent, and one
letter that they touch, which spoils it. -/
def numeralBody (isMark : UInt8 → Bool) : Bytes → Bytes
  | [] => []
  | [b] => if isMark b || Bytes.isHexDigit b || b == 46 || Bytes.isNameByte b then [b] else []
  | b :: c :: rest =>
    if isMark b then
      if c == 43 || c == 45 then b :: c :: numeralBody isMark rest
      else b :: numeralBody isMark (c :: rest)
    else if Bytes.isHexDigit b || b == 46 then b :: numeralBody isMark (c :: rest)
    else if Bytes.isNameByte b then [b]
    else []

/-- The bytes that a numeral takes; the mark of an exponent is `p` after `0x` and `e`
otherwise. -/
def numeral : Bytes → Bytes
  | 46 :: rest => 46 :: unpointed rest
  | text => unpointed text
where
  unpointed : Bytes → Bytes
    | 48 :: x :: rest =>
      if x == 120 || x == 88 then 48 :: x :: numeralBody (fun b => b == 112 || b == 80) rest
      else 48 :: numeralBody decimalMark (x :: rest)
    | text => numeralBody decimalMark text
  decimalMark (b : UInt8) : Bool := b == 101 || b == 69

/-- Does the text begin with these bytes? -/
def beginsWith : Bytes → Bytes → Bool
  | [], _ => true
  | _ :: _, [] => false
  | p :: ps, b :: bs => p == b && beginsWith ps bs

/-- What begins at a place that is no blank, with what follows it. -/
def lexemeAt (b : UInt8) (rest : Bytes) (line : Nat) : Token × Source :=
  let text := b :: rest
  let plain (lexeme : Lexeme) (length : Nat) : Token × Source :=
    (⟨lexeme, line, text.take length⟩, ⟨text.drop length, line⟩)
  let ended (opening closing : Bytes) (found : Except Lexeme (Bytes × Source)) : Token × Source :=
    match found with
    | .ok (bytes, s) => (⟨.string bytes, s.line, opening ++ bytes ++ closing⟩, s)
    | .error e => (⟨e, line, []⟩, ⟨[], line⟩)
  if Bytes.isNameByte b && !Bytes.isDigit b then
    let name := text.takeWhile Bytes.isNameByte
    match reservedWords.find? fun word => Bytes.ofString word = name with
    | some word => plain (.reserved word) name.length
    | none => plain (.name name) name.length
  else if Bytes.isDigit b || (b == 46 && (rest.head?.map Bytes.isDigit).getD false) then
    let written := numeral text
    match Number.unsigned? written with
    | some n => plain (.number (n false)) written.length
    | none => plain (faultAt line "malformed number" written) written.length
  else if b = 34 ∨ b = 39 then ended [b] [b] (shortString b text.length [b] ⟨rest, line⟩)
  else
    match if b = 91 then bracketLevel? 91 rest else none with
    | some level =>
      let sep := List.replicate level 61
      ended (91 :: sep ++ [91]) (93 :: sep ++ [93])
        (longBracket "string" level ⟨rest.drop (level + 1), line⟩)
    | none =>
      if b = 91 ∧ rest.head? = some 61 then
        plain (faultAt line "invalid long string delimiter"
          (91 :: rest.takeWhile (· == 61))) 1
      else
        match longMarks.find? fun mark => beginsWith (Bytes.ofString mark) text with
        | some mark => plain (.mark mark) mark.length
        | none => plain (.byte b) 1

/-- The tokens of a text; the last one is the end or a mistake. -/
def scanFrom : Nat → Source → List Token
  | 0, s => [{ lexeme := .finish, line := s.line }]
  | fuel + 1, s =>
    match s.rest with
    | [] => [{ lexeme := .finish, line := s.line }]
    | b :: rest =>
      if isLineEnd b then scanFrom fuel ⟨skipLineEnd s.rest, s.line + 1⟩
      else if Bytes.isBlank b then scanFrom fuel { s with rest }
      else if b = 45 ∧ rest.head? = some 45 then
        let rest := rest.drop 1
        let level := match rest with
          | 91 :: more => bracketLevel? 91 more
          | _ => none
        match level with
        | some level =>
          match longBracket "comment" level ⟨rest.drop (level + 2), s.line⟩ with
          | .ok (_, s) => scanFrom fuel s
          | .error e => [{ lexeme := e, line := s.line }]
        | none => scanFrom fuel { s with rest := rest.dropWhile fun b => !isLineEnd b }
      else
        let (token, s) := lexemeAt b rest s.line
        match token.lexeme with
        | .broken _ => [token]
        | _ => token :: scanFrom fuel s

def scan (text : Bytes) : List Token := scanFrom (text.length + 1) ⟨text, 1⟩

end Token

end ScriptHost.Lua

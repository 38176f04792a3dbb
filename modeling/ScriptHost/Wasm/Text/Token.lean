import ScriptHost.Text.Digit
import ScriptHost.Wasm.Text.Mistake

/-!
# Tokens of module text

The text of a module is parentheses, strings, names that begin with a dollar sign, and
words; blanks and comments separate them. Each token knows its place. Where the text is no
token, there is a broken one, and nothing after it; nor is there after one that is reserved.
-/

namespace ScriptHost.Wasm.Text

inductive Token where
  | opening
  | closing
  | bytes (content : List UInt8)
  | name (text : String)
  | word (text : List Char)
  | reserved
  | broken (r : Reason)
  | finish
  deriving DecidableEq, Inhabited

/-- A token and the number of bytes before it. -/
structure Placed where
  token : Token
  place : Nat
  deriving Inhabited

namespace Token

/-- The characters of words. -/
def isWordChar (c : Char) : Bool :=
  c.isAlphanum || "!#$%&'*+-./:<=>?@\\^_\x60|~".toList.contains c

/-- Characters that change the direction of text, and so hide what it says. -/
def isConfusing (c : Char) : Bool :=
  (0x202a ≤ c.toNat && c.toNat ≤ 0x202e) || (0x2066 ≤ c.toNat && c.toNat ≤ 0x2069)

/-- The first character of a comment that hides what it says, with its place. -/
def hidden? (place : Nat) : List Char → Option (Nat × Char)
  | [] => none
  | c :: rest => if isConfusing c then some (place, c) else hidden? (place + c.utf8Size) rest

/-- A block comment of some depth from behind its mark on: its text, reversed, and what follows
it. -/
def blockComment (done : List Char) : Nat → List Char → Option (List Char × List Char)
  | _, [] => none
  | depth, '(' :: ';' :: rest => blockComment (';' :: '(' :: done) (depth + 1) rest
  | depth, ';' :: ')' :: rest =>
    if depth ≤ 1 then some (')' :: ';' :: done, rest)
    else blockComment (')' :: ';' :: done) (depth - 1) rest
  | depth, c :: rest => blockComment (c :: done) depth rest

/-- What is read of a string, or the reason why it is none; both with what follows. -/
abbrev Reading (α : Type) := Except (Reason × List Char) (α × List Char)

/-- A character written as its number: hexadecimal digits, between which underscores may
stand. -/
def hexNumber (value : Nat) (isFirst afterMark : Bool) : List Char → Reading Nat
  | [] => .error (if afterMark then .loneUnderscore else .endOfText, [])
  | c :: rest =>
    match Text.hexValue? c with
    | some d =>
      if 16 * value + d < UInt32.size then hexNumber (16 * value + d) false false rest
      else .error (.numberTooBig, rest)
    | none =>
      if isFirst then .error (.hexDigit c, rest)
      else if c = '_' then hexNumber value false true rest
      else if afterMark then .error (.loneUnderscore, c :: rest)
      else .ok (value, c :: rest)

/-- What a backslash in a string stands for. -/
def escape : List Char → Reading (List UInt8)
  | [] => .error (.endOfText, [])
  | 't' :: rest => .ok ([9], rest)
  | 'n' :: rest => .ok ([10], rest)
  | 'r' :: rest => .ok ([13], rest)
  | '"' :: rest => .ok ([34], rest)
  | '\'' :: rest => .ok ([39], rest)
  | '\\' :: rest => .ok ([92], rest)
  | 'u' :: rest =>
    match rest with
    | [] => .error (.endOfText, [])
    | '\x7b' :: rest =>
      match hexNumber 0 true false rest with
      | .error e => .error e
      | .ok (n, rest) =>
        if n.isValidChar then
          match rest with
          | '\x7d' :: rest => .ok ((String.singleton (Char.ofNat n)).toUTF8.toList, rest)
          | c :: rest => .error (.expectedCharacter '\x7d' c, rest)
          | [] => .error (.endOfText, [])
        else .error (.notUnicode n, rest)
    | c :: rest => .error (.expectedCharacter '\x7b' c, rest)
  | a :: rest =>
    match Text.hexValue? a, rest with
    | none, _ => .error (.stringEscape a, rest)
    | some _, [] => .error (.endOfText, [])
    | some x, b :: rest =>
      match Text.hexValue? b with
      | some y => .ok ([(16 * x + y).toUInt8], rest)
      | none => .error (.hexDigit b, rest)

/-- The content of a string up to its closing quote. -/
def quoted : Nat → List UInt8 → List Char → Reading (List UInt8)
  | 0, _, cs => .error (.endOfText, cs)
  | fuel + 1, done, cs =>
    match cs with
    | [] => .error (.endOfText, [])
    | '"' :: rest => .ok (done.reverse, rest)
    | '\\' :: rest =>
      match escape rest with
      | .error e => .error e
      | .ok (content, rest) => quoted fuel (content.reverse ++ done) rest
    | c :: rest =>
      if c.toNat < 32 ∨ c.toNat = 127 then .error (.stringCharacter c, rest)
      else if isConfusing c then .error (.confusing c, rest)
      else quoted fuel ((String.singleton c).toUTF8.toList.reverse ++ done) rest

/-- Does something follow that would be part of the same token? -/
def goesOn : List Char → Bool
  | c :: _ => isWordChar c || c = '"'
  | [] => false

/-- The token of a run of word characters. -/
def ofWord : List Char → Token
  | '$' :: c :: rest => .name (String.ofList (c :: rest))
  | cs => .word cs

/-- The characters that stand for nothing yet. -/
def isReserved (c : Char) : Bool := ";,[]\x7b\x7d".toList.contains c

/-- The number of bytes of characters. -/
def bytesOf (cs : List Char) : Nat := cs.foldl (fun n c => n + c.utf8Size) 0

/-- The tokens of a text from a place on. Every round takes a character. -/
def scan : Nat → Nat → List Char → List Placed
  | _, place, [] => [⟨.finish, place⟩]
  | 0, place, c :: _ => [⟨.broken (.unexpectedCharacter c), place⟩]
  | fuel + 1, place, c :: rest =>
    let comment (text after : List Char) : List Placed :=
      match hidden? place text with
      | some (there, d) => [⟨.broken (.confusing d), there⟩]
      | none => scan fuel (place + bytesOf text) after
    if c = ' ' ∨ c = '\n' ∨ c = '\r' ∨ c = '\t' then scan fuel (place + 1) rest
    else if c = ';' ∧ rest.head? = some ';' then
      let isInside (d : Char) : Bool := d ≠ '\n' && d ≠ '\r'
      comment ((c :: rest).takeWhile isInside) ((c :: rest).dropWhile isInside)
    else if c = '(' then
      if rest.head? = some ';' then
        match blockComment [';', '('] 1 rest.tail with
        | some (text, after) => comment text.reverse after
        | none => [⟨.broken .openComment, place⟩]
      else ⟨.opening, place⟩ :: scan fuel (place + 1) rest
    else if c = ')' then ⟨.closing, place⟩ :: scan fuel (place + 1) rest
    else if c = '"' then
      match quoted (rest.length + 1) [] rest with
      | .ok (content, after) =>
        if goesOn after then [⟨.reserved, place⟩]
        else
          ⟨.bytes content, place⟩ :: scan fuel (place + 1 + bytesOf rest - bytesOf after) after
      | .error (r, after) => [⟨.broken r, place + 1 + bytesOf rest - bytesOf after⟩]
    else if isWordChar c then
      let run := (c :: rest).takeWhile isWordChar
      let after := (c :: rest).dropWhile isWordChar
      if goesOn after then [⟨.reserved, place⟩]
      else ⟨ofWord run, place⟩ :: scan fuel (place + run.length) after
    else if isReserved c then [⟨.reserved, place⟩]
    else [⟨.broken (.unexpectedCharacter c), place⟩]

@[simp]
theorem scan_nil (fuel place : Nat) : scan fuel place [] = [⟨.finish, place⟩] := by
  rw [scan]

end Token

/-- The tokens of a text. The last one is not known to be of any use. -/
def tokens (text : String) : List Placed :=
  let cs := text.toList
  Token.scan cs.length 0 cs

end ScriptHost.Wasm.Text

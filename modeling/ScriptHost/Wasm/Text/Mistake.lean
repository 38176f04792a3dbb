import ScriptHost.Text.Quoted

/-!
# Mistakes in module text

Why a text is no module, and the number of bytes before the place where that shows. A mistake is
shown with the line of the text that it is on.
-/

namespace ScriptHost.Wasm.Text

inductive Reason where
  | openComment
  | unexpectedCharacter (c : Char)
  | stringCharacter (c : Char)
  | stringEscape (c : Char)
  | hexDigit (c : Char)
  | expectedCharacter (wanted found : Char)
  | notUnicode (n : Nat)
  | numberTooBig
  | loneUnderscore
  | confusing (c : Char)
  | endOfText
  | expectedOpening
  | expectedClosing
  | expectedKeyword (word : String)
  | expectedOneOf (what : List String)
  | expectedNumber (type : String)
  | expectedFloat
  | expectedString
  | outOfRange (type : String)
  | malformedText
  | expectedInstruction
  | unknownOperator
  | noFields
  | unknownField
  | extraTokens
  | manyStarts
  | alignment
  | noThen
  | manyArms
  | unknownName (space name : String)
  | repeatedName (space : String)
  | otherType
  | otherLabel
  | lateImport (kind : String)
  deriving DecidableEq

/-- A character between quotes. -/
def Reason.quoted (c : Char) : String :=
  let inner :=
    if c = '\'' then "\\'" else if c = '"' then "\"" else Text.Quoted.encodeChar c
  "'" ++ inner ++ "'"

def Reason.message : Reason → String
  | openComment => "unterminated block comment"
  | unexpectedCharacter c => "unexpected character " ++ quoted c
  | stringCharacter c => "invalid character in string " ++ quoted c
  | stringEscape c => "invalid string escape " ++ quoted c
  | hexDigit c => "invalid hex digit " ++ quoted c
  | expectedCharacter wanted found => "expected " ++ quoted wanted ++ " but found " ++ quoted found
  | notUnicode n => "invalid unicode scalar value 0x" ++ Text.hexDigits n
  | numberTooBig => "number is too big to parse"
  | loneUnderscore => "bare underscore in numeric literal"
  | confusing c => "likely-confusing unicode character found " ++ quoted c
  | endOfText => "unexpected end-of-file"
  | expectedOpening => "expected \x60(\x60"
  | expectedClosing => "expected \x60)\x60"
  | expectedKeyword word => "expected keyword \x60" ++ word ++ "\x60"
  | expectedOneOf what =>
    match what with
    | [] => "unexpected token"
    | [a] => "unexpected token, expected " ++ a
    | [a, b] => "unexpected token, expected " ++ a ++ " or " ++ b
    | what => "unexpected token, expected one of: " ++ ", ".intercalate what
  | expectedNumber type => "expected a " ++ type
  | expectedFloat => "expected a float"
  | expectedString => "expected a string"
  | outOfRange type => "invalid " ++ type ++ " number: constant out of range"
  | malformedText => "malformed UTF-8 encoding"
  | expectedInstruction => "expected an instruction"
  | unknownOperator => "unknown operator or unexpected token"
  | noFields => "expected at least one module field"
  | unknownField => "expected valid module field"
  | extraTokens => "extra tokens remaining"
  | manyStarts => "multiple start sections found"
  | alignment => "alignment must be a power of two"
  | noThen => "previous \x60if\x60 had no \x60then\x60"
  | manyArms => "unexpected token: too many payloads inside of \x60(if)\x60"
  | unknownName space name => "unknown " ++ space ++ ": failed to find name \x60$" ++ name ++ "\x60"
  | repeatedName space => "duplicate " ++ space ++ " identifier"
  | otherType => "inline function type doesn't match type reference"
  | otherLabel => "mismatching labels between end and block"
  | lateImport kind => "import after " ++ kind

structure Mistake where
  reason : Reason
  place : Nat
  deriving DecidableEq

/-- The line that so many bytes lead to, the bytes of it before that place, both counted from
zero, and its text. -/
def lineAt (place : Nat) : List String → Nat × Nat × String
  | [] => (0, 0, "")
  | line :: rest =>
    if place ≤ line.utf8ByteSize then (0, place, line)
    else
      let (n, column, text) := lineAt (place - line.utf8ByteSize - 1) rest
      (n + 1, column, text)

/-- The lines of a text; a line feed at its end begins no further one. -/
def linesOf (source : String) : List String :=
  let lines := source.splitOn "\n"
  if lines.getLast? = some "" then lines.dropLast else lines

/-- A number from the right in four places. -/
def inFour (n : Nat) : String :=
  let s := toString n
  String.ofList (List.replicate (4 - s.length) ' ') ++ s

/-- The mistake in the text of a path. -/
def Mistake.message (m : Mistake) (path source : String) : String :=
  let (line, column, text) := lineAt m.place (linesOf source)
  let text := if text.endsWith "\r" then (text.dropEnd 1).toString else text
  m.reason.message ++ "\n     --> " ++ path ++ ":" ++ toString (line + 1) ++ ":" ++
    toString (column + 1) ++ "\n      |\n " ++ inFour (line + 1) ++ " | " ++ text ++
    "\n      | " ++ String.ofList (List.replicate column ' ') ++ "^"

end ScriptHost.Wasm.Text

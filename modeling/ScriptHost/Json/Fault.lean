/-!
# What is wrong with a JSON text

A fault names its cause and the place where reading stopped: what was left of the text
there, and how many bytes beyond that point were already looked at.
-/

namespace ScriptHost.Json

inductive Cause where
  | endInList
  | endInObject
  | endInString
  | endInValue
  | expectedColon
  | expectedListEnd
  | expectedObjectEnd
  | expectedWord
  | expectedValue
  | invalidEscape
  | invalidNumber
  | numberOutOfRange
  | controlCharacter
  | keyNotString
  | loneSurrogate
  | trailingComma
  | trailingCharacters
  | unfinishedSurrogates
  | tooDeep
  deriving DecidableEq

def Cause.message : Cause → String
  | .endInList => "EOF while parsing a list"
  | .endInObject => "EOF while parsing an object"
  | .endInString => "EOF while parsing a string"
  | .endInValue => "EOF while parsing a value"
  | .expectedColon => "expected \x60:\x60"
  | .expectedListEnd => "expected \x60,\x60 or \x60]\x60"
  | .expectedObjectEnd => "expected \x60,\x60 or \x60\x7d\x60"
  | .expectedWord => "expected ident"
  | .expectedValue => "expected value"
  | .invalidEscape => "invalid escape"
  | .invalidNumber => "invalid number"
  | .numberOutOfRange => "number out of range"
  | .controlCharacter =>
    "control character (\\u0000-\\u001F) found while parsing a string"
  | .keyNotString => "key must be a string"
  | .loneSurrogate => "lone leading surrogate in hex escape"
  | .trailingComma => "trailing comma"
  | .trailingCharacters => "trailing characters"
  | .unfinishedSurrogates => "unexpected end of hex escape"
  | .tooDeep => "recursion limit exceeded"

structure Fault where
  cause : Cause
  rest : List Char
  ahead : Nat

/-- The number of bytes of the characters in UTF-8. -/
def byteLength (cs : List Char) : Nat := cs.foldl (fun n c => n + c.utf8Size) 0

/-- The line and column after `count` bytes of the text: the column counts the bytes since
the last line feed. -/
def place (count : Nat) (cs : List Char) : Nat × Nat :=
  go count 1 0 cs
where
  go (left line column : Nat) : List Char → Nat × Nat
    | [] => (line, column)
    | c :: rest =>
      if left < c.utf8Size then (line, column + left)
      else if c = '\n' then go (left - 1) (line + 1) 0 rest
      else go (left - c.utf8Size) line (column + c.utf8Size) rest

/-- The cause with the line and column of the fault in `source`. -/
def Fault.message (source : String) (f : Fault) : String :=
  let cs := source.toList
  let (line, column) := place (byteLength cs - byteLength f.rest + f.ahead) cs
  f.cause.message ++ " at line " ++ toString line ++ " column " ++ toString column

end ScriptHost.Json

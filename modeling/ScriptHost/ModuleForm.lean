/-!
# The first module form

A test script holds parenthesised forms one after the other. The first whose opening
parenthesis is directly followed by the word `module` is the one that is compiled. The
search goes over the bytes and passes over strings, line comments and nested block
comments; outside ASCII every byte is like any other.
-/

namespace ScriptHost.ModuleForm

/-- Where the search stands: in plain text, in a line comment, in a string, in block
comments of some depth, or at a byte that is passed over before it goes on. -/
inductive Mode where
  | text
  | line
  | quoted
  | block (depth : Nat)
  | skip (next : Mode)
  deriving DecidableEq

/-- A blank of ASCII. -/
def isBlankByte (b : UInt8) : Bool :=
  b == 0x20 || b == 0x09 || b == 0x0a || b == 0x0c || b == 0x0d

/-- Do the bytes begin with the word `module`, followed by a blank, a closing parenthesis or
nothing? -/
def startsModule : List UInt8 → Bool
  | 0x6d :: 0x6f :: 0x64 :: 0x75 :: 0x6c :: 0x65 :: rest =>
    match rest with
    | [] => true
    | b :: _ => isBlankByte b || b == 0x29
  | _ => false

/-- Goes through the bytes from position `place` on, at nesting depth `depth`, with the start
of the form if it has begun. The result is the first and one past the last position. A mark
of two bytes is taken at its first byte, and its second is skipped. -/
def scan (mode : Mode) (place depth : Nat) (start : Option Nat) :
    List UInt8 → Option (Nat × Nat)
  | [] => none
  | b :: rest =>
    match mode with
    | .skip next => scan next (place + 1) depth start rest
    | .line => scan (if b = 0x0a then .text else .line) (place + 1) depth start rest
    | .quoted =>
      let next : Mode := if b = 0x22 then .text else if b = 0x5c then .skip .quoted else .quoted
      scan next (place + 1) depth start rest
    | .block nesting =>
      let next : Mode :=
        if b = 0x28 ∧ rest.head? = some 0x3b then .skip (.block (nesting + 1))
        else if b = 0x3b ∧ rest.head? = some 0x29 then
          .skip (if nesting ≤ 1 then .text else .block (nesting - 1))
        else .block nesting
      scan next (place + 1) depth start rest
    | .text =>
      if b = 0x3b ∧ rest.head? = some 0x3b then scan .line (place + 1) depth start rest
      else if b = 0x28 ∧ rest.head? = some 0x3b then
        scan (.skip (.block 1)) (place + 1) depth start rest
      else if b = 0x22 then scan .quoted (place + 1) depth start rest
      else if b = 0x28 then
        let start := if depth = 0 ∧ startsModule rest then some place else start
        scan .text (place + 1) (depth + 1) start rest
      else if b = 0x29 then
        match depth, start with
        | 0, _ => none
        | 1, some first => some (first, place + 1)
        | depth + 1, start => scan .text (place + 1) depth start rest
      else scan .text (place + 1) depth start rest

@[simp]
theorem scan_nil (mode : Mode) (place depth : Nat) (start : Option Nat) :
    scan mode place depth start [] = none := by
  rw [scan]

/-- The first and one past the last byte of the first module form. -/
def find? (source : List UInt8) : Option (Nat × Nat) := scan .text 0 0 none source

/-- The first module form of a text, with the bytes before it. -/
def split? (source : String) : Option (List UInt8 × List UInt8) :=
  let bytes := source.toUTF8.toList
  (find? bytes).map fun (first, after) =>
    (bytes.take first, (bytes.drop first).take (after - first))

/-- The text that is compiled for a test script: an empty line for each line feed before the
form, then the form, so that every line keeps its number. -/
def extract? (source : String) : Option String := do
  let (before, form) ← split? source
  let padding : List UInt8 := List.replicate (before.count 0x0a) 0x0a
  String.fromUTF8? ⟨(padding ++ form).toArray⟩

end ScriptHost.ModuleForm

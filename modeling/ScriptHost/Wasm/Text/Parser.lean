import ScriptHost.Wasm.Numeric
import ScriptHost.Wasm.Module
import ScriptHost.Wasm.Text.Literal
import ScriptHost.Wasm.Text.Syntax
import ScriptHost.Wasm.Text.Token

/-!
# Reading module text

A parser takes tokens from the front of a list. It fails at the first token that it cannot use,
with what it would have used in its place.
-/

namespace ScriptHost.Wasm.Text

abbrev Parser := StateT (List Placed) (Except Mistake)

namespace Parser

def here : Parser Nat := do
  match ← get with
  | t :: _ => return t.place
  | [] => return 0


def token : Parser Token := do
  match ← get with
  | t :: _ => return t.token
  | [] => return .finish

/-- Fails at the next token. What is wrong with a broken one comes first. -/
def stop {α : Type} (r : Reason) : Parser α := do
  match ← token with
  | .broken own => throw ⟨own, ← here⟩
  | _ => throw ⟨r, ← here⟩

/-- The token after the next. -/
def second : Parser Token := do
  match ← get with
  | _ :: t :: _ => return t.token
  | _ => return .finish

def advance : Parser Unit := modify List.tail

def expect (t : Token) (r : Reason) : Parser Unit := do
  if (← token) = t then advance else stop r

def isWord (w : String) : Parser Bool := do return (← token) = .word w.toList

def word (w : String) : Parser Unit := expect (.word w.toList) (.expectedKeyword w)

/-- Does a form of this word come next? -/
def isForm (w : String) : Parser Bool := do
  return (← token) = .opening ∧ (← second) = .word w.toList

def parens {α : Type} (content : Parser α) : Parser α := do
  expect .opening .expectedOpening
  let a ← content
  expect .closing .expectedClosing
  return a

def form {α : Type} (w : String) (content : Parser α) : Parser α := parens do
  word w
  content

/-- Is nothing left in the form, or in the text? -/
def atEnd : Parser Bool := do return (← token) = .closing ∨ (← token) = .finish

/-- Repeats while a condition holds; every repetition takes a token. -/
def repeatFor {α : Type} (condition : Parser Bool) (item : Parser α) : Nat → Parser (List α)
  | 0 => return []
  | n + 1 => do
    if ← condition then return (← item) :: (← repeatFor condition item n) else return []

def repeatWhile {α : Type} (condition : Parser Bool) (item : Parser α) : Parser (List α) := do
  repeatFor condition item (← get).length

def toEnd {α : Type} (item : Parser α) : Parser (List α) :=
  repeatWhile (do return !(← atEnd)) item

/-! ## Words, names and numbers -/

def id? : Parser (Option Id) := do
  match ← token with
  | .name name =>
    let place ← here
    advance
    return some ⟨name, place⟩
  | _ => return none

/-- Takes a word that means something. -/
def reading {α : Type} (r : Reason) (meaning : List Char → Option α) : Parser α := do
  match ← token with
  | .word w =>
    match meaning w with
    | some a =>
      advance
      return a
    | none => stop r
  | _ => stop r

def isInteger : Parser Bool := do
  match ← token with
  | .word w => return (integer? w).isSome
  | _ => return false

/-- Takes a word that is a number of a type. -/
def number {α : Type} (type : String) (meaning : List Char → Option α) : Parser α := do
  reading (if ← isInteger then .outOfRange type else .expectedNumber type) meaning

def u32 : Parser Nat := number "u32" (unsigned? UInt32.size)

def u64 : Parser Nat := number "u64" (unsigned? UInt64.size)

def isRef : Parser Bool := do
  match ← token with
  | .name _ => return true
  | _ => isInteger

def ref : Parser Ref := do
  match ← id? with
  | some id => return .named id
  | none =>
    if ← isInteger then return .number (← u32)
    else stop (.expectedOneOf ["an identifier", "u32"])

def ref? : Parser (Option Ref) := do
  if ← isRef then return some (← ref) else return none

def bytes : Parser (List UInt8) := do
  match ← token with
  | .bytes content =>
    advance
    return content
  | _ => stop .expectedString

/-- A string that is text. -/
def text : Parser String := do
  match ← token with
  | .bytes content =>
    match String.fromUTF8? ⟨content.toArray⟩ with
    | some s =>
      advance
      return s
    | none => stop .malformedText
  | _ => stop .expectedString

/-! ## Types -/

def refTypes : List (String × UInt8) :=
  [("funcref", 0x70), ("externref", 0x6f), ("anyref", 0x6e), ("eqref", 0x6d), ("i31ref", 0x6c),
    ("structref", 0x6b), ("arrayref", 0x6a), ("exnref", 0x69), ("nullfuncref", 0x73),
    ("nullexternref", 0x72), ("nullref", 0x71)]

def valTypes : List (String × UInt8) :=
  [("i32", 0x7f), ("i64", 0x7e), ("f32", 0x7d), ("f64", 0x7c), ("v128", 0x7b)] ++ refTypes

def heapTypes : List (String × UInt8) :=
  [("func", 0x70), ("extern", 0x6f), ("any", 0x6e), ("eq", 0x6d), ("i31", 0x6c),
    ("struct", 0x6b), ("array", 0x6a), ("exn", 0x69), ("nofunc", 0x73), ("noextern", 0x72),
    ("none", 0x71)]

/-- Takes one of some words. `shown` names them in messages. -/
def oneOf (names : List (String × UInt8)) (shown : List String) : Parser UInt8 :=
  reading (.expectedOneOf shown) fun w => names.lookup (String.ofList w)

/-- Words between marks, as messages show them. -/
def marked (words : List String) : List String := words.map fun w => "\x60" ++ w ++ "\x60"

def isRefType : Parser Bool := do
  match ← token with
  | .word w => return (refTypes.lookup (String.ofList w)).isSome
  | _ => return false

def valType : Parser UInt8 :=
  oneOf valTypes (marked ["i32", "i64", "f32", "f64", "v128"] ++ ["reftype"])

def refType : Parser UInt8 := oneOf refTypes ["reftype"]

/-- What stands behind `param` or `local`: one type with a name, or any number without. -/
def typedNames (named : Bool) : Parser (List (Option Id × UInt8)) := do
  if ← atEnd then return []
  match ← if named then id? else pure none with
  | some id => return [(some id, ← valType)]
  | none => toEnd do return (none, ← valType)

/-- Parameters and then results, if there are any. -/
def signature? (named : Bool) : Parser (Option Signature) := do
  let isPart : Parser Bool := do return (← isForm "param") || (← isForm "result")
  if !(← isPart) then return none
  let parts ← repeatWhile (isForm "param") (form "param" (typedNames named))
  let results ← repeatWhile isPart (parens do
    word "result"
    toEnd valType)
  return some ⟨parts.flatten, results.flatten⟩

def typeUse (named : Bool) : Parser TypeUse := do
  if ← isForm "type" then
    let (ref, place) ← form "type" do
      let place ← here
      return (← ref, place)
    return { ref := some ref, place, signature := ← signature? named }
  else return { signature := ← signature? named }

def limits : Parser Limits := do
  let min ← u64
  if ← isInteger then return ⟨min, some (← u64)⟩ else return ⟨min, none⟩

def globalType : Parser (UInt8 × Bool) := do
  if ← isForm "mut" then return (← form "mut" valType, true) else return (← valType, false)

/-! ## Instructions -/

/-- The bytes of an opcode; those from `fc00` on have two. -/
def opcode (n : Nat) : List UInt8 := if n < 256 then [n.toUInt8] else [0xfc, n.toUInt8]

def withoutOperands : List (String × Nat) :=
  [("unreachable", 0x00), ("nop", 0x01), ("return", 0x0f), ("drop", 0x1a), ("ref.is_null", 0xd1)]

def withRef : List (String × Nat × Space) :=
  [("br", 0x0c, .label), ("br_if", 0x0d, .label), ("call", 0x10, .function),
    ("local.get", 0x20, .local_), ("local.set", 0x21, .local_), ("local.tee", 0x22, .local_),
    ("global.get", 0x23, .global), ("global.set", 0x24, .global), ("ref.func", 0xd2, .function),
    ("data.drop", 0xfc09, .data), ("elem.drop", 0xfc0d, .element)]

/-- Instructions on a table or memory, which is the first unless it is named. -/
def withOptionalRef : List (String × Nat × Space) :=
  [("table.get", 0x25, .table), ("table.set", 0x26, .table), ("table.grow", 0xfc0f, .table),
    ("table.size", 0xfc10, .table), ("table.fill", 0xfc11, .table),
    ("memory.size", 0x3f, .memory), ("memory.grow", 0x40, .memory),
    ("memory.fill", 0xfc0b, .memory)]

/-- Instructions that copy from one table or memory to another. -/
def withTwoRefs : List (String × Nat × Space) :=
  [("memory.copy", 0xfc0a, .memory), ("table.copy", 0xfc0e, .table)]

/-- Instructions that copy from a segment to a table or memory. -/
def withSegment : List (String × Nat × Space × Space) :=
  [("memory.init", 0xfc08, .data, .memory), ("table.init", 0xfc0c, .element, .table)]

/-- The value of a word such as `offset=8`. -/
def setting? (key : String) (w : List Char) : Option Nat := do
  let key := key.toList ++ ['=']
  if key.isPrefixOf w then
    let n ← unsigned? UInt64.size (w.drop key.length)
    return n
  else none

def setting (key : String) : Parser (Option Nat) := do
  match ← token with
  | .word w =>
    if (key.toList ++ ['=']).isPrefixOf w then
      return some (← reading (.outOfRange "u64") (setting? key))
    else return none
  | _ => return none

/-- Where a load or store of so many bytes goes; it is aligned to its size unless it says
otherwise. -/
def access (size : Nat) : Parser Operand := do
  let memory := (← ref?).getD (.number 0)
  let offset := (← setting "offset").getD 0
  let align ← match ← setting "align" with
    | some n => if n = Nat.pow 2 (Nat.log2 n) then pure n else stop .alignment
    | none => pure size
  return .access (Nat.log2 align) memory offset

def selectTypes : Parser (List Operand) := do
  if !(← isForm "result") then return []
  let types ← repeatWhile (isForm "result") (form "result" (toEnd valType))
  return [.unsigned types.flatten.length, .raw types.flatten]

/-- The rest of an instruction behind its name; none if it has no such name. -/
def operands (name : String) : Parser (Option Instr) := do
  let plain (n : Nat) (os : List Operand) : Option Instr := some (.plain (opcode n) os)
  if let some n := withoutOperands.lookup name then return plain n []
  if let some n := Numeric.codeOfName? name then return plain n []
  if let some (n, space) := withRef.lookup name then return plain n [.ref space (← ref)]
  if let some (n, space) := withOptionalRef.lookup name then
    return plain n [.ref space ((← ref?).getD (.number 0))]
  if let some (n, space) := withTwoRefs.lookup name then
    match ← ref? with
    | some target => return plain n [.ref space target, .ref space (← ref)]
    | none => return plain n [.ref space (.number 0), .ref space (.number 0)]
  if let some (n, segments, targets) := withSegment.lookup name then
    let first ← ref
    match ← ref? with
    | some segment => return plain n [.ref segments segment, .ref targets first]
    | none => return plain n [.ref segments first, .ref targets (.number 0)]
  if let some (n, _, a) := (Access.loads ++ Access.stores).find? fun e => e.2.1 = name then
    return plain n [← access a.bytes]
  match name with
  | "block" => return some (.enter 0x02 (← id?) (← typeUse false))
  | "loop" => return some (.enter 0x03 (← id?) (← typeUse false))
  | "if" => return some (.enter 0x04 (← id?) (← typeUse false))
  | "else" => return some (.otherwise (← id?))
  | "end" => return some (.leave (← id?))
  | "br_table" =>
    let refs := (← ref) :: (← repeatWhile isRef ref)
    return plain 0x0e (.unsigned (refs.length - 1) :: refs.map (.ref .label))
  | "call_indirect" =>
    let table := (← ref?).getD (.number 0)
    return plain 0x11 [.use (← typeUse false), .ref .table table]
  | "select" =>
    match ← selectTypes with
    | [] => return plain 0x1b []
    | types => return plain 0x1c types
  | "i32.const" => return plain 0x41 [.signed (← number "i32" (signed? 32))]
  | "i64.const" => return plain 0x42 [.signed (← number "i64" (signed? 64))]
  | "f32.const" => return plain 0x43 [.raw (← float .single 4)]
  | "f64.const" => return plain 0x44 [.raw (← float .double 8)]
  | "ref.null" => return plain 0xd0 [.raw [← oneOf heapTypes (marked (heapTypes.map (·.1)))]]
  | _ => return none
where
  /-- The bytes of a float, the lowest first. -/
  float (f : Decimal.BinaryFormat) (n : Nat) : Parser (List UInt8) := do
    let bits ← reading .expectedFloat (float? f)
    return (List.range n).map fun i => (bits / Nat.pow 256 i).toUInt8

/-- An instruction, which ends before those that it is folded around. -/
def instr : Parser Instr := do
  match ← token with
  | .word w =>
    if !w.head?.any Char.isLower then stop .expectedInstruction
    let place ← here
    advance
    match ← operands (String.ofList w) with
    | some i => return i
    | none => throw ⟨.unknownOperator, place⟩
  | _ => stop .expectedInstruction

/-- A folded instruction that is open: the instruction that its end adds, an arm of an `if`,
or an `if` before its first arm, after that, or after both. -/
inductive Level where
  | ends (i : Instr)
  | arm
  | condition (i : Instr)
  | afterFirst
  | afterBoth

/-- What a parenthesis opens. `code` is reversed. -/
def openFolded (levels : List Level) (code : List Instr) :
    Parser (List Level × List Instr) := do
  match levels with
  | .condition i :: outer =>
    if ← isWord "then" then
      advance
      return (.arm :: .afterFirst :: outer, i :: code)
    else folded
  | .afterFirst :: outer =>
    word "else"
    return (.arm :: .afterBoth :: outer, .otherwise none :: code)
  | .afterBoth :: _ => stop .manyArms
  | _ => folded
where
  folded : Parser (List Level × List Instr) := do
    match ← instr with
    | .enter 0x04 label type => return (.condition (.enter 0x04 label type) :: levels, code)
    | .enter n label type => return (.ends (.leave none) :: levels, .enter n label type :: code)
    | i => return (.ends i :: levels, code)

/-- What the end of a folded instruction adds. -/
def closeFolded (code : List Instr) : Level → Parser (List Instr)
  | .ends i => return i :: code
  | .arm => return code
  | .condition _ => stop .noThen
  | .afterFirst | .afterBoth => return .leave none :: code

/-- Instructions up to the end of a form, or just one folded instruction. -/
def codeFor (single : Bool) : Nat → List Level → List Instr → Parser Code
  | 0, _, _ => stop .expectedInstruction
  | fuel + 1, levels, code => do
    let t ← token
    match levels with
    | [] =>
      if t = .closing ∨ t = .finish then return code.reverse
    | .condition _ :: _ | .afterFirst :: _ | .afterBoth :: _ =>
      if t ≠ .opening ∧ t ≠ .closing then stop .expectedOpening
    | _ => pure ()
    match t, levels with
    | .opening, _ =>
      advance
      let (levels, code) ← openFolded levels code
      codeFor single fuel levels code
    | .closing, level :: outer =>
      let code ← closeFolded code level
      advance
      if single ∧ outer.isEmpty then return code.reverse else codeFor single fuel outer code
    | _, _ => codeFor single fuel levels ((← instr) :: code)

def code : Parser Code := do codeFor false ((← get).length + 1) [] []

/-- One folded instruction. -/
def foldedCode : Parser Code := do
  if (← token) = .opening then codeFor true ((← get).length + 1) [] []
  else stop .expectedOpening

/-! ## Fields -/

/-- The names that a field is exported by, written inside of it. -/
def inlineExports : Nat → Parser (List String)
  | 0 => return []
  | fuel + 1 => do
    match ← get with
    | ⟨.opening, _⟩ :: ⟨.word w, _⟩ :: ⟨.bytes _, _⟩ :: ⟨.closing, _⟩ :: _ =>
      if String.ofList w = "export" then
        let name ← form "export" text
        return name :: (← inlineExports fuel)
      else return []
    | _ => return []

/-- The names that a field is imported by, written inside of it. -/
def inlineImport? : Parser (Option (String × String)) := do
  match ← get with
  | ⟨.opening, _⟩ :: ⟨.word w, _⟩ :: ⟨.bytes _, _⟩ :: ⟨.bytes _, _⟩ :: ⟨.closing, _⟩ :: _ =>
    if String.ofList w = "import" then
      return some (← form "import" do return (← text, ← text))
    else return none
  | _ => return none

def tableType : Parser (UInt8 × Limits) := do
  let limits ← limits
  return (← refType, limits)

/-- An offset written as a form of its own or as one folded instruction. -/
def offset : Parser Code := do
  if ← isForm "offset" then form "offset" code else foldedCode

/-- Elements as expressions, each in a form `item` or folded. -/
def itemCode : Parser Code := do
  if ← isForm "item" then form "item" code else foldedCode

def elementItems : Parser Items := do
  if ← isWord "func" then
    advance
    return .refs (← toEnd ref)
  else if ← isRefType then return .expressions (← refType) (← toEnd itemCode)
  else return .refs (← toEnd ref)

def target (w : String) : Parser Ref := do
  if ← isInteger then return .number (← u32)
  else if ← isForm w then form w ref
  else return .number 0

def elementMode : Parser Mode := do
  if ← isWord "declare" then
    advance
    return .declared
  else if (← isInteger) || (← token) = .opening then return .active (← target "table") (← offset)
  else return .passive

def dataMode : Parser Mode := do
  match ← token with
  | .bytes _ | .closing => return .passive
  | _ => return .active (← target "memory") (← offset)

/-- What can be imported and exported, as messages show it. -/
def kindsShown : List String := marked ["func", "table", "memory", "global", "tag"]

def exportKinds : List (String × ExternKind) :=
  [("func", .func), ("table", .table), ("memory", .memory), ("global", .global)]

/-- What an import is to be, with its name here. -/
def wanted : Parser (Option Id × Wanted) := do
  if ← isWord "func" then
    advance
    return (← id?, .func (← typeUse true))
  else if ← isWord "table" then
    advance
    let id ← id?
    let (type, limits) ← tableType
    return (id, .table type limits)
  else if ← isWord "memory" then
    advance
    return (← id?, .memory (← limits))
  else if ← isWord "global" then
    advance
    let id ← id?
    let (type, mutable) ← globalType
    return (id, .global type mutable)
  else stop (.expectedOneOf kindsShown)

def pagesFor (size : Nat) : Nat := (size + 65535) / 65536

/-- The rest of a field that can be imported or exported where it stands. -/
def definition (w : String) (id : Option Id) (place : Nat) : Parser Field := do
  let exports ← inlineExports (← get).length
  let names ← inlineImport?
  match w, names with
  | "func", some (module, name) =>
    return { id, place, exports, content := .import module name (.func (← typeUse true)) }
  | "func", none =>
    let type ← typeUse true
    let locals ← repeatWhile (isForm "local") (form "local" (typedNames true))
    return { id, place, exports, content := .func type locals.flatten (← code) }
  | "table", some (module, name) =>
    let (type, limits) ← tableType
    return { id, place, exports, content := .import module name (.table type limits) }
  | "table", none =>
    if ← isRefType then
      let type ← refType
      let items ← form "elem" do
        if (← token) = .opening then return Items.expressions type (← toEnd itemCode)
        else return Items.refs (← toEnd ref)
      let n := match items with
        | .refs rs => rs.length
        | .expressions _ cs => cs.length
      return { id, place, exports, content := .table type ⟨n, some n⟩
               segment := some (.inr items) }
    else
      let (type, limits) ← tableType
      return { id, place, exports, content := .table type limits }
  | "memory", some (module, name) =>
    return { id, place, exports, content := .import module name (.memory (← limits)) }
  | "memory", none =>
    if ← isForm "data" then
      let content := (← form "data" (toEnd bytes)).flatten
      let n := pagesFor content.length
      return { id, place, exports, content := .memory ⟨n, some n⟩, segment := some (.inl content) }
    else return { id, place, exports, content := .memory (← limits) }
  | _, some (module, name) =>
    let (type, mutable) ← globalType
    return { id, place, exports, content := .import module name (.global type mutable) }
  | _, none =>
    let (type, mutable) ← globalType
    return { id, place, exports, content := .global type mutable (← code) }

def field : Parser Field := parens do
  let place ← here
  let w := match ← token with
    | .word w => String.ofList w
    | _ => ""
  match w with
  | "type" =>
    advance
    let id ← id?
    let signature ← form "func" (signature? true)
    return { id, place, content := .type (signature.getD ⟨[], []⟩) }
  | "import" =>
    advance
    let module ← text
    let name ← text
    let (id, wanted) ← parens wanted
    return { id, place, content := .import module name wanted }
  | "func" | "table" | "memory" | "global" =>
    advance
    let id ← id?
    definition w id place
  | "export" =>
    advance
    let name ← text
    let (kind, r) ← parens do
      return (← reading (.expectedOneOf kindsShown)
        fun w => exportKinds.lookup (String.ofList w), ← ref)
    return { place, content := .export name kind r }
  | "start" =>
    advance
    return { place, content := .start (← ref) }
  | "elem" =>
    advance
    let id ← id?
    let mode ← elementMode
    return { id, place, content := .elements mode (← elementItems) }
  | "data" =>
    advance
    let id ← id?
    let mode ← dataMode
    return { id, place, content := .data mode (← toEnd bytes).flatten }
  | _ => stop .unknownField

/-- A module with its form or only its fields, and nothing after it. There is one start
field at most. -/
def source : Parser Source := do
  if (← token) = .finish then stop .noFields
  let found ← if ← isForm "module" then
      form "module" do
        let id ← id?
        if ← isWord "binary" then
          advance
          return Source.binary (← toEnd bytes).flatten
        else return Source.fields id (← toEnd field)
    else pure (Source.fields none (← toEnd field))
  match found with
  | .fields _ fields =>
    if 1 < (fields.filter fun f => f.content matches .start _).length then
      stop .manyStarts
  | .binary _ => pure ()
  if (← token) = .finish then return found else stop .extraTokens

end Parser

/-- The module of a text, or its first mistake. -/
def parse (text : String) : Except Mistake Source :=
  (Parser.source.run (tokens text)).map Prod.fst

end ScriptHost.Wasm.Text

import ScriptHost.Wasm.Binary.Reader
import ScriptHost.Wasm.Binary.Writer
import ScriptHost.Wasm.Text.Parser

/-!
# The binary of a module text

Exports, imports and segments that are written inside of other fields become fields of
their own; types that are only written out get a place among the types; names give way to
numbers. A name that stands for nothing, or for two things, is a mistake.
-/

namespace ScriptHost.Wasm.Text

open Binary

/-! ## Fields inside of fields -/

/-- The number of fields that count in a space. -/
def countIn (space : Space) (fields : List Field) : Nat :=
  (fields.filter fun f => f.content.space? = some space).length

/-- The kind that a field is exported as. -/
def Space.exportKind : Space → ExternKind
  | .table => .table
  | .memory => .memory
  | .global => .global
  | _ => .func

/-- The fields that one field stands for, behind those of the ones before it. -/
def addField (before : List Field) (f : Field) : List Field :=
  let space := f.content.space?.getD .function
  let index := countIn space before
  let exports : List Field := f.exports.map fun name =>
    { place := f.place, content := .export name space.exportKind (.number index) }
  let start : Code := [.plain [0x41] [.signed 0]]
  let segments : List Field := match f.segment with
    | some (.inl bytes) =>
      [{ place := f.place, content := .data (.active (.number index) start) bytes }]
    | some (.inr items) =>
      [{ place := f.place, content := .elements (.active (.number index) start) items }]
    | none => []
  before ++ exports ++ segments ++ [{ f with exports := [], segment := none }]

/-- The kind of what a field defines, as messages name it. -/
def Content.defined? : Content → Option String
  | .func _ _ _ => some "function"
  | .memory _ => some "memory"
  | .table _ _ => some "table"
  | .global _ _ _ => some "global"
  | _ => none

/-- Imports come before what is defined; the mistake of one that directly follows a
definition. -/
def lateImport? : List Field → Option Mistake
  | f :: g :: rest =>
    match f.content.defined?, g.content with
    | some kind, .import _ _ _ => some ⟨.lateImport kind, g.place⟩
    | _, _ => lateImport? (g :: rest)
  | _ => none

/-! ## Types -/

abbrev TypeKey := List UInt8 × List UInt8

/-- A type that is a field, or one that is only written out where it is used. -/
inductive TypeTag where
  | field (n : Nat)
  | written (n : Nat)
  deriving DecidableEq

/-- The types of a module in order, and the one that each written type stands for. -/
structure TypeTable where
  order : List (TypeTag × TypeKey) := []
  known : List (TypeKey × TypeTag) := []
  fields : Nat := 0
  written : Nat := 0

/-- What a type use writes out. -/
def TypeUse.key (u : TypeUse) : TypeKey := (u.signature.map Signature.key).getD ([], [])

/-- Does a block need a type of its own? -/
def TypeUse.isWide (u : TypeUse) : Bool := !u.key.1.isEmpty || 1 < u.key.2.length

/-- The types that an instruction uses without reference. -/
def Instr.keys : Instr → List TypeKey
  | .plain _ operands => operands.filterMap fun
    | .use u => if u.ref.isNone then some u.key else none
    | _ => none
  | .enter _ _ u => if u.ref.isNone && u.isWide then [u.key] else []
  | .otherwise _ | .leave _ => []

def codeKeys (code : Code) : List TypeKey := code.flatMap Instr.keys

def Mode.keys : Mode → List TypeKey
  | .active _ offset => codeKeys offset
  | .passive | .declared => []

/-- The types that a field uses without reference, in order. -/
def Content.keys : Content → List TypeKey
  | .import _ _ (.func u) => if u.ref.isNone then [u.key] else []
  | .func u _ code => (if u.ref.isNone then [u.key] else []) ++ codeKeys code
  | .global _ _ code => codeKeys code
  | .elements mode (.refs _) => mode.keys
  | .elements mode (.expressions _ items) => mode.keys ++ items.flatMap codeKeys
  | .data mode _ => mode.keys
  | _ => []

namespace TypeTable

/-- Makes a place for a written type, unless it has one. -/
def addKey (t : TypeTable) (key : TypeKey) : TypeTable :=
  match t.known.lookup key with
  | some _ => t
  | none =>
    let tag := TypeTag.written t.written
    { t with order := t.order ++ [(tag, key)], known := t.known ++ [(key, tag)],
             written := t.written + 1 }

/-- Makes places for the types that a field uses, and for the field if it is a type. -/
def addField (t : TypeTable) (f : Field) : TypeTable :=
  let t := f.content.keys.foldl addKey t
  match f.content with
  | .type s =>
    { t with order := t.order ++ [(.field t.fields, s.key)], fields := t.fields + 1 }
  | _ => t

/-- The types of fields are known from the start. -/
def ofFields (fields : List Field) : TypeTable :=
  let keys := fields.filterMap fun f =>
    match f.content with
    | .type s => some s.key
    | _ => none
  fields.foldl addField { known := keys.zipIdx.map fun (key, n) => (key, .field n) }

/-- The number of a type. -/
def index (t : TypeTable) (tag : TypeTag) : Nat := t.order.findIdx fun e => e.1 = tag

/-- The number of a written type. -/
def indexOf (t : TypeTable) (key : TypeKey) : Nat :=
  ((t.known.lookup key).map t.index).getD 0

end TypeTable

/-! ## Names -/

/-- What numbers the names of a module stand for. -/
structure Names where
  types : TypeTable
  entries : List ((Space × String) × Nat) := []

/-- A result, or a mistake. -/
abbrev Placing := Except Mistake

/-- The mistake of a name that stands for nothing. -/
def Id.unknown (id : Id) (space : Space) : Mistake := ⟨.unknownName space.name id.name, id.place⟩

namespace Names

/-- Numbers the fields, of which those before were numbered already. -/
def addFields (names : Names) (before : List Field) : List Field → Placing Names
  | [] => .ok names
  | f :: rest => do
    let names ← match f.content.space?, f.id with
      | some space, some id =>
        let n := countIn space before
        let n := if space = .type then names.types.index (.field n) else n
        if (names.entries.lookup (space, id.name)).isSome then
          throw ⟨.repeatedName space.name, id.place⟩
        else pure { names with entries := ((space, id.name), n) :: names.entries }
      | _, _ => pure names
    names.addFields (before ++ [f]) rest

def resolve (names : Names) (space : Space) : Ref → Placing Nat
  | .number n => .ok n
  | .named id =>
    match names.entries.lookup (space, id.name) with
    | some n => .ok n
    | none => .error (id.unknown space)

/-- The number of the type that is used. What is written out has to be the type referred to. -/
def typeOf (names : Names) (u : TypeUse) : Placing Nat :=
  match u.ref with
  | none => .ok (names.types.indexOf u.key)
  | some r => do
    let n ← names.resolve .type r
    match u.signature, names.types.order[n]? with
    | some s, some (_, key) => if s.key = key then return n else throw ⟨.otherType, u.place⟩
    | _, _ => return n

end Names

/-! ## Code -/

/-- The names that code can use besides those of the module: locals by number, and labels,
the innermost first. -/
structure Scope where
  locals : List (String × Nat) := []
  labels : List (Option Id) := []

namespace Scope

def resolve (scope : Scope) (names : Names) (space : Space) : Ref → Placing Nat
  | .number n => .ok n
  | .named id =>
    match space with
    | .local_ =>
      match scope.locals.lookup id.name with
      | some n => .ok n
      | none => .error (id.unknown space)
    | .label =>
      match scope.labels.findIdx? fun l => l.any (·.name = id.name) with
      | some n => .ok n
      | none => .error (id.unknown space)
    | other => names.resolve other (.named id)

def operand (scope : Scope) (names : Names) : Operand → Placing (List UInt8)
  | .ref space r => return Writer.unsigned (← scope.resolve names space r)
  | .use u => return Writer.unsigned (← names.typeOf u)
  | .access align memory offset => do
    let m ← names.resolve .memory memory
    if m = 0 then return Writer.unsigned align ++ Writer.unsigned offset
    else return Writer.unsigned (align + 64) ++ Writer.unsigned m ++ Writer.unsigned offset
  | .unsigned n => .ok (Writer.unsigned n)
  | .signed i => .ok (Writer.signed i)
  | .raw bytes => .ok bytes

/-- The type of a block: by number, or its one result or none. -/
def blockType (names : Names) (u : TypeUse) : Placing (List UInt8) :=
  if u.ref.isSome ∨ u.isWide then do return Writer.signed (← names.typeOf u)
  else
    match u.key.2 with
    | [t] => .ok [t]
    | _ => .ok [0x40]

/-- A label that is repeated has to be that of the block. -/
def checkLabel (block : Option (Option Id)) : Option Id → Placing Unit
  | none => .ok ()
  | some id =>
    match block with
    | none => .ok ()
    | some label => if label.any (·.name = id.name) then .ok ()
      else .error ⟨.otherLabel, id.place⟩

/-- The bytes of code without its last end. -/
def code (scope : Scope) (names : Names) : Code → Placing (List UInt8)
  | [] => .ok []
  | i :: rest =>
    match i with
    | .plain opcode operands => do
      let parts ← operands.mapM (scope.operand names)
      return opcode ++ parts.flatten ++ (← scope.code names rest)
    | .enter opcode label u => do
      let type ← blockType names u
      let inner := { scope with labels := label :: scope.labels }
      return opcode :: type ++ (← inner.code names rest)
    | .otherwise label => do
      checkLabel scope.labels.head? label
      return 0x05 :: (← scope.code names rest)
    | .leave label => do
      checkLabel scope.labels.head? label
      return 0x0b :: (← { scope with labels := scope.labels.tail }.code names rest)

/-- The scope with more locals, which are numbered from `first`. -/
def addLocals (scope : Scope) (first : Nat) : List (Option Id) → Placing Scope
  | [] => .ok scope
  | none :: rest => scope.addLocals (first + 1) rest
  | some id :: rest =>
    if (scope.locals.lookup id.name).isSome then
      .error ⟨.repeatedName Space.local_.name, id.place⟩
    else { scope with locals := (id.name, first) :: scope.locals }.addLocals (first + 1) rest

end Scope

/-- Code that refers to nothing but the module. -/
def plainCode (names : Names) (code : Code) : Placing (List UInt8) := do
  return (← ({} : Scope).code names code) ++ [0x0b]

/-- The names of the locals of a function by parameters and others; parameters of a type that
is only referred to have none. -/
def localIds (names : Names) (u : TypeUse) (type : Nat) (locals : List (Option Id × UInt8)) :
    List (Option Id) :=
  let params := match u.signature with
    | some s => s.params.map (·.1)
    | none => List.replicate ((names.types.order[type]?.map fun e => e.2.1.length).getD 0) none
  params ++ locals.map (·.1)

/-! ## Sections -/

/-- What the sections hold, each in order. -/
structure Sections where
  imports : List (List UInt8) := []
  functions : List (List UInt8) := []
  tables : List (List UInt8) := []
  memories : List (List UInt8) := []
  globals : List (List UInt8) := []
  exports : List (List UInt8) := []
  start : Option Nat := none
  elements : List (List UInt8) := []
  codes : List (List UInt8) := []
  data : List (List UInt8) := []

def limitsBytes (l : Limits) : List UInt8 :=
  match l.max with
  | none => 0 :: Writer.unsigned l.min
  | some max => 1 :: (Writer.unsigned l.min ++ Writer.unsigned max)

def globalTypeBytes (type : UInt8) (mutable : Bool) : List UInt8 :=
  [type, if mutable then 1 else 0]

def wantedBytes (names : Names) : Wanted → Placing (List UInt8)
  | .func u => return 0 :: Writer.unsigned (← names.typeOf u)
  | .table type l => .ok (1 :: type :: limitsBytes l)
  | .memory l => .ok (2 :: limitsBytes l)
  | .global type mutable => .ok (3 :: globalTypeBytes type mutable)

def functionBytes (names : Names) (u : TypeUse) (type : Nat) (locals : List (Option Id × UInt8))
    (code : Code) : Placing (List UInt8) := do
  let scope ← ({} : Scope).addLocals 0 (localIds names u type locals)
  let runs := (Writer.runs (locals.map (·.2))).map fun (n, t) => Writer.unsigned n ++ [t]
  return Writer.sized (Writer.vector runs ++ (← scope.code names code) ++ [0x0b])

def elementsBytes (names : Names) (mode : Mode) (items : Items) : Placing (List UInt8) := do
  let (low, place, isZero) ← match mode with
    | .active target offset => do
      let n ← names.resolve .table target
      let offset ← plainCode names offset
      if n = 0 then pure (0, offset, true) else pure (2, Writer.unsigned n ++ offset, false)
    | .passive => pure (1, [], false)
    | .declared => pure (3, [], false)
  match items with
  | .refs rs =>
    let indices ← rs.mapM fun r => return Writer.unsigned (← names.resolve .function r)
    return low :: place ++ (if isZero then [] else [0x00]) ++ Writer.vector indices
  | .expressions type codes =>
    let codes ← codes.mapM (plainCode names)
    if isZero ∧ type ≠ 0x70 then return 6 :: 0 :: place ++ type :: Writer.vector codes
    else return (low + 4) :: place ++ (if isZero then [] else [type]) ++ Writer.vector codes

def dataBytes (names : Names) (mode : Mode) (bytes : List UInt8) : Placing (List UInt8) := do
  match mode with
  | .active target offset =>
    let n ← names.resolve .memory target
    let offset ← plainCode names offset
    if n = 0 then return 0 :: offset ++ Writer.sized bytes
    else return 2 :: Writer.unsigned n ++ offset ++ Writer.sized bytes
  | .passive | .declared => return 1 :: Writer.sized bytes

/-- Adds what a field holds to its section. -/
def addContent (names : Names) (s : Sections) (f : Field) : Placing Sections := do
  match f.content with
  | .type _ => return s
  | .import module name wanted =>
    let bytes := Writer.text module ++ Writer.text name ++ (← wantedBytes names wanted)
    return { s with imports := s.imports ++ [bytes] }
  | .func u locals code =>
    let type ← names.typeOf u
    let body ← functionBytes names u type locals code
    return { s with functions := s.functions ++ [Writer.unsigned type], codes := s.codes ++ [body] }
  | .table type l => return { s with tables := s.tables ++ [type :: limitsBytes l] }
  | .memory l => return { s with memories := s.memories ++ [limitsBytes l] }
  | .global type mutable code =>
    let init ← plainCode names code
    return { s with globals := s.globals ++ [globalTypeBytes type mutable ++ init] }
  | .export name kind r =>
    let space : Space := match kind with
      | .func => .function
      | .table => .table
      | .memory => .memory
      | .global => .global
    let n ← names.resolve space r
    return { s with exports := s.exports ++ [Writer.text name ++ kind.code :: Writer.unsigned n] }
  | .start r => return { s with start := some (← names.resolve .function r) }
  | .elements mode items =>
    return { s with elements := s.elements ++ [← elementsBytes names mode items] }
  | .data mode bytes => return { s with data := s.data ++ [← dataBytes names mode bytes] }

def typeBytes (key : TypeKey) : List UInt8 := 0x60 :: (Writer.sized key.1 ++ Writer.sized key.2)

/-- Does code refer to data segments, whose number has to be known before then? -/
def usesData (fields : List Field) : Bool :=
  fields.any fun f =>
    match f.content with
    | .func _ _ code => code.any fun
      | .plain opcode _ => opcode = [0xfc, 8] ∨ opcode = [0xfc, 9]
      | _ => false
    | _ => false

/-! ## The section of names -/

/-- The names of the things of a kind. -/
def namesIn (space : Space) (types : TypeTable) (fields : List Field) : List (Nat × String) :=
  let counted := fields.filter fun f => f.content.space? = some space
  counted.zipIdx.filterMap fun (f, n) =>
    f.id.map fun id => (if space = .type then types.index (.field n) else n, id.name)

def namedItems (ids : List (Option Id)) : List (Nat × String) :=
  ids.zipIdx.filterMap fun (id, n) => id.map fun id => (n, id.name)

/-- The names of locals of each function; without types written out, those of the parameters
do not count. -/
def localNamesOf (fields : List Field) : List (Nat × List (Nat × String)) :=
  let functions := fields.filter fun f => f.content.space? = some .function
  functions.zipIdx.filterMap fun (f, n) =>
    match f.content with
    | .func u locals _ =>
      let params := (u.signature.map fun s => s.params.map (·.1)).getD []
      let found := namedItems (params ++ locals.map (·.1))
      if found.isEmpty then none else some (n, found)
    | _ => none

/-- The names of the blocks of each function. -/
def labelNamesOf (fields : List Field) : List (Nat × List (Nat × String)) :=
  let functions := fields.filter fun f => f.content.space? = some .function
  functions.zipIdx.filterMap fun (f, n) =>
    match f.content with
    | .func _ _ code =>
      let found := namedItems (code.filterMap fun
        | .enter _ label _ => some label
        | _ => none)
      if found.isEmpty then none else some (n, found)
    | _ => none

def nameMap (names : List (Nat × String)) : List UInt8 :=
  Writer.vector (names.map fun (n, name) => Writer.unsigned n ++ Writer.text name)

def indirectNameMap (names : List (Nat × List (Nat × String))) : List UInt8 :=
  Writer.vector (names.map fun (n, inner) => Writer.unsigned n ++ nameMap inner)

/-- The section that gives names to things, if anything has one. -/
def nameSection (id : Option Id) (types : TypeTable) (fields : List Field) : List UInt8 :=
  let own := match id with
    | some id => Writer.section_ 0 (Writer.text id.name)
    | none => []
  let direct (kind : UInt8) (space : Space) : List UInt8 :=
    let names := namesIn space types fields
    if names.isEmpty then [] else Writer.section_ kind (nameMap names)
  let indirect (kind : UInt8) (names : List (Nat × List (Nat × String))) : List UInt8 :=
    if names.isEmpty then [] else Writer.section_ kind (indirectNameMap names)
  let content := own ++ direct 1 .function ++ indirect 2 (localNamesOf fields) ++
    indirect 3 (labelNamesOf fields) ++ direct 4 .type ++ direct 5 .table ++ direct 6 .memory ++
    direct 7 .global ++ direct 8 .element ++ direct 9 .data
  if content.isEmpty then [] else Writer.section_ 0 (Writer.text "name" ++ content)

/-- The binary of the fields of a module. -/
def encodeFields (id : Option Id) (fields : List Field) : Placing (List UInt8) := do
  let fields := fields.foldl addField []
  match lateImport? fields with
  | some mistake => throw mistake
  | none => pure ()
  let types := TypeTable.ofFields fields
  let names ← ({ types } : Names).addFields [] fields
  let s ← fields.foldlM (addContent names) {}
  let start := match s.start with
    | some n => Writer.section_ 8 (Writer.unsigned n)
    | none => []
  let dataCount :=
    if usesData fields then Writer.section_ 12 (Writer.unsigned s.data.length) else []
  return Binary.preamble ++
    Writer.listSection 1 (types.order.map fun e => typeBytes e.2) ++
    Writer.listSection 2 s.imports ++ Writer.listSection 3 s.functions ++
    Writer.listSection 4 s.tables ++ Writer.listSection 5 s.memories ++
    Writer.listSection 6 s.globals ++ Writer.listSection 7 s.exports ++ start ++
    Writer.listSection 9 s.elements ++ dataCount ++ Writer.listSection 10 s.codes ++
    Writer.listSection 11 s.data ++ nameSection id types fields

/-- The binary of a module text, or its first mistake. -/
def encode (text : String) : Except Mistake (List UInt8) := do
  match ← parse text with
  | .binary bytes => return bytes
  | .fields id fields => encodeFields id fields

end ScriptHost.Wasm.Text

import ScriptHost.Wasm.Module

/-!
# Reading the binary format

A reader takes what it needs from the front of a list of bytes and hands the rest on.
Nothing says why bytes are not a module: a host only learns that they are not.
-/

namespace ScriptHost.Wasm.Binary

abbrev Reader := StateT (List UInt8) Option

/-- What every module begins with: its mark and its version. -/
def preamble : List UInt8 := [0x00, 0x61, 0x73, 0x6d, 0x01, 0x00, 0x00, 0x00]

namespace Reader

def byte : Reader UInt8
  | [] => none
  | b :: rest => some (b, rest)

/-- The next `n` bytes. -/
def take (n : Nat) : Reader (List UInt8) := fun bytes =>
  if n ≤ bytes.length then some (bytes.take n, bytes.drop n) else none

/-- Reads the next `n` bytes, all of them, as the content of something. -/
def within {α : Type} (n : Nat) (content : Reader α) : Reader α := do
  let part ← take n
  match content part with
  | some (a, []) => return a
  | _ => failure

/-- `n` things one after the other. -/
def times {α : Type} (item : Reader α) : Nat → Reader (List α)
  | 0 => return []
  | n + 1 => do return (← item) :: (← times item n)

/-! ## Numbers -/

/-- A number below `2 ^ bits` in groups of seven bits, the lowest first. A group that is
followed by another has its highest bit set; groups of zeros may follow as far as `bits`
leaves room for them. -/
def unsignedFrom (bits : Nat) : List UInt8 → Option (Nat × List UInt8)
  | [] => none
  | b :: rest =>
    let n := b.toNat
    if n < 128 then if n < Nat.pow 2 bits then some (n, rest) else none
    else if 7 < bits then
      match unsignedFrom (bits - 7) rest with
      | some (high, rest) => some (n - 128 + 128 * high, rest)
      | none => none
    else none

def unsigned (bits : Nat) : Reader Nat := fun bytes => unsignedFrom bits bytes

/-- An integer of `bits` bits in the same groups; the second highest bit of the last group is
the sign. -/
def signedFrom (bits : Nat) : List UInt8 → Option (Int × List UInt8)
  | [] => none
  | b :: rest =>
    let n := b.toNat
    if n < 64 then if n < Nat.pow 2 (bits - 1) then some (n, rest) else none
    else if n < 128 then
      if 128 ≤ n + Nat.pow 2 (bits - 1) then some ((n : Int) - 128, rest) else none
    else if 7 < bits then
      match signedFrom (bits - 7) rest with
      | some (high, rest) => some ((n : Int) - 128 + 128 * high, rest)
      | none => none
    else none

def signed (bits : Nat) : Reader Int := fun bytes => signedFrom bits bytes

def u32 : Reader Nat := unsigned 32

/-- A number in `n` bytes, the lowest first. -/
def fixed (n : Nat) : Reader Nat := do
  let bytes ← take n
  return bytes.foldr (fun b acc => b.toNat + 256 * acc) 0

/-- A list behind its length. -/
def vector {α : Type} (item : Reader α) : Reader (List α) := do times item (← u32)

/-- The bytes of a name, not more than 100000. -/
def nameBytes : Reader (List UInt8) := do
  let n ← u32
  if n ≤ 100000 then take n else failure

def text : Reader String := do
  match String.fromUTF8? ⟨(← nameBytes).toArray⟩ with
  | some s => return s
  | none => failure

/-! ## Types -/

def valType : Reader ValType := do
  match ValType.ofCode? (← byte) with
  | some t => return t
  | none => failure

def refType : Reader Unit := do
  if (← valType) = .funcref then return () else failure

def flag : Reader Bool := do
  match ← byte with
  | 0 => return false
  | 1 => return true
  | _ => failure

def funcType : Reader FuncType := do
  if (← byte) = 0x60 then return ⟨← vector valType, ← vector valType⟩ else failure

def limits : Reader Limits := do
  if ← flag then return ⟨← u32, some (← u32)⟩ else return ⟨← u32, none⟩

def tableType : Reader Limits := do
  refType
  limits

def globalType : Reader GlobalType := do return ⟨← valType, ← flag⟩

def blockType : Reader BlockType := fun bytes =>
  match bytes with
  | 0x40 :: rest => some (.results [], rest)
  | b :: rest =>
    match ValType.ofCode? b with
    | some t => some (.results [t], rest)
    | none =>
      match signed 33 bytes with
      | some (.ofNat n, rest) => some (.index n, rest)
      | _ => none
  | [] => none

/-! ## Code -/

/-- An alignment, which says by its bit 6 that the number of a memory follows, and an
offset. -/
def memArg : Reader MemArg := do
  let align ← u32
  if align < 64 then return ⟨align, ← u32, 0⟩
  else if align < 128 then
    let memory ← u32
    return ⟨align - 64, ← u32, memory⟩
  else failure

/-- The instructions whose opcodes begin with `fc`. -/
def extended : Reader Basic := do
  match ← u32 with
  | 8 => return .memoryInit (← u32) (← u32)
  | 9 => return .dataDrop (← u32)
  | 10 => return .memoryCopy (← u32) (← u32)
  | 11 => return .memoryFill (← u32)
  | 12 => return .tableInit (← u32) (← u32)
  | 13 => return .elementsDrop (← u32)
  | 14 => return .tableCopy (← u32) (← u32)
  | 15 => return .tableGrow (← u32)
  | 16 => return .tableSize (← u32)
  | 17 => return .tableFill (← u32)
  | n =>
    match Numeric.ofCode? (0xfc00 + n) with
    | some op => return .numeric op
    | none => failure

/-- An integer as the bits of a number of `bits` bits. -/
def wrap (bits : Nat) (i : Int) : Nat := (i % Nat.pow 2 bits).toNat

/-- An instruction without a body, behind its opcode. -/
def basic (opcode : UInt8) : Reader Basic := do
  match opcode with
  | 0x00 => return .unreachable
  | 0x01 => return .nop
  | 0x0c => return .br (← u32)
  | 0x0d => return .brIf (← u32)
  | 0x0e => return .brTable (← vector u32) (← u32)
  | 0x0f => return .leave
  | 0x10 => return .call (← u32)
  | 0x11 => return .callIndirect (← u32) (← u32)
  | 0x1a => return .drop
  | 0x1b => return .select none
  | 0x1c => return .select (some (← vector valType))
  | 0x20 => return .localGet (← u32)
  | 0x21 => return .localSet (← u32)
  | 0x22 => return .localTee (← u32)
  | 0x23 => return .globalGet (← u32)
  | 0x24 => return .globalSet (← u32)
  | 0x25 => return .tableGet (← u32)
  | 0x26 => return .tableSet (← u32)
  | 0x3f => return .memorySize (← u32)
  | 0x40 => return .memoryGrow (← u32)
  | 0x41 => return .i32 (wrap 32 (← signed 32)).toUInt32
  | 0x42 => return .i64 (wrap 64 (← signed 64)).toUInt64
  | 0x43 => return .f32 (← fixed 4).toUInt32
  | 0x44 => return .f64 (← fixed 8).toUInt64
  | 0xd0 =>
    refType
    return .refNull
  | 0xd1 => return .refIsNull
  | 0xd2 => return .refFunc (← u32)
  | 0xfc => extended
  | _ =>
    let n := opcode.toNat
    match Access.loads.lookup n, Access.stores.lookup n, Numeric.ofCode? n with
    | some (_, access), _, _ => return .load access (← memArg)
    | none, some (_, access), _ => return .store access (← memArg)
    | none, none, some op => return .numeric op
    | none, none, none => failure

/-- What an open block still waits for. -/
inductive Opening where
  | block (type : BlockType)
  | loop (type : BlockType)
  | yes (type : BlockType)
  | no (type : BlockType) (first : List Instr)

/-- The instruction that an `end` makes of an open block. -/
def Opening.close (body : List Instr) : Opening → Instr
  | block t => .block t body
  | loop t => .loop t body
  | yes t => .branch t body []
  | no t first => .branch t first body

/-- Code up to the `end` that closes it. `done` holds what was read of the innermost block,
the last first; `outer` holds the open blocks with what was read before each. Every round
takes a byte, so as many rounds as there are bytes are enough. -/
def codeFrom : Nat → List (Opening × List Instr) → List Instr → Reader (List Instr)
  | 0, _, _ => failure
  | fuel + 1, outer, done => do
    match ← byte with
    | 0x02 => codeFrom fuel ((.block (← blockType), done) :: outer) []
    | 0x03 => codeFrom fuel ((.loop (← blockType), done) :: outer) []
    | 0x04 => codeFrom fuel ((.yes (← blockType), done) :: outer) []
    | 0x05 =>
      match outer with
      | (.yes t, before) :: outer => codeFrom fuel ((.no t done.reverse, before) :: outer) []
      | _ => failure
    | 0x0b =>
      match outer with
      | [] => return done.reverse
      | (opening, before) :: outer => codeFrom fuel outer (opening.close done.reverse :: before)
    | opcode => codeFrom fuel outer (.basic (← basic opcode) :: done)

/-- Code up to the `end` that closes it. -/
def code : Reader (List Instr) := fun bytes => codeFrom bytes.length [] [] bytes

/-! ## Sections -/

def importType : Reader ImportType := do
  match ← byte with
  | 0 => return .func (← u32)
  | 1 => return .table (← tableType)
  | 2 => return .memory (← limits)
  | 3 => return .global (← globalType)
  | _ => failure

def importItem : Reader Import := do return ⟨← text, ← text, ← importType⟩

def exportItem : Reader Export := do
  let name ← text
  match ExternKind.ofCode? (← byte) with
  | some kind => return ⟨name, kind, ← u32⟩
  | none => failure

def elementKind : Reader Unit := do
  if (← byte) = 0 then return () else failure

def functionItems : Reader Elements := do return .functions (← vector u32)

def expressionItems : Reader Elements := do return .expressions (← vector code)

def elementSegment : Reader ElementSegment := do
  match ← u32 with
  | 0 => return ⟨.active 0 (← code), ← functionItems⟩
  | 1 =>
    elementKind
    return ⟨.passive, ← functionItems⟩
  | 2 =>
    let mode := SegmentMode.active (← u32) (← code)
    elementKind
    return ⟨mode, ← functionItems⟩
  | 3 =>
    elementKind
    return ⟨.declared, ← functionItems⟩
  | 4 => return ⟨.active 0 (← code), ← expressionItems⟩
  | 5 =>
    refType
    return ⟨.passive, ← expressionItems⟩
  | 6 =>
    let mode := SegmentMode.active (← u32) (← code)
    refType
    return ⟨mode, ← expressionItems⟩
  | 7 =>
    refType
    return ⟨.declared, ← expressionItems⟩
  | _ => failure

def dataSegment : Reader DataSegment := do
  match ← u32 with
  | 0 => return ⟨.active 0 (← code), ← take (← u32)⟩
  | 1 => return ⟨.passive, ← take (← u32)⟩
  | 2 => return ⟨.active (← u32) (← code), ← take (← u32)⟩
  | _ => failure

def codeItem : Reader Code := do
  within (← u32) do return ⟨← vector (do return (← u32, ← valType)), ← code⟩

/-- The place of a section among the others, for the numbers of sections; sections that are
not custom come in ascending order of it. -/
def sectionRank? (id : UInt8) : Option Nat :=
  [1, 2, 3, 4, 5, 6, 7, 8, 9, 12, 10, 11].idxOf? id

/-- Adds what one section holds to the module. -/
def sectionContent (id : UInt8) (m : Module) : Reader Module := do
  match id with
  | 1 => return { m with types := ← vector funcType }
  | 2 => return { m with imports := ← vector importItem }
  | 3 => return { m with functions := ← vector u32 }
  | 4 => return { m with tables := (← vector tableType).map fun limits => { limits } }
  | 5 => return { m with memories := ← vector limits }
  | 6 => return { m with globals := ← vector (do return ⟨← globalType, ← code⟩) }
  | 7 => return { m with exports := ← vector exportItem }
  | 8 => return { m with start := some (← u32) }
  | 9 => return { m with elements := ← vector elementSegment }
  | 10 => return { m with codes := ← vector codeItem }
  | 11 => return { m with data := ← vector dataSegment }
  | 12 => return { m with dataCount := some (← u32) }
  | _ => failure

/-- Reads all of `bytes`. -/
def all {α : Type} (content : Reader α) (bytes : List UInt8) : Option α :=
  match content bytes with
  | some (a, []) => some a
  | _ => none

end Reader

/-- A section by its number and its bytes. The sections of number 0 are custom: they begin
with a name and mean nothing to the module. -/
structure Section where
  id : UInt8
  content : List UInt8

/-- Splits what follows the preamble into sections. Each takes two bytes at least. -/
def splitSections : Nat → List UInt8 → Option (List Section)
  | _, [] => some []
  | 0, _ :: _ => none
  | fuel + 1, id :: rest => do
    let (content, rest) ← (do Reader.take (← Reader.u32) : Reader (List UInt8)) rest
    return ⟨id, content⟩ :: (← splitSections fuel rest)

/-- The sections of a binary. -/
def sections? (bytes : List UInt8) : Option (List Section) :=
  if bytes.take 8 = preamble then splitSections bytes.length (bytes.drop 8) else none

/-- Adds a section to what the ones before it hold. `next` is the least rank that a section
which is not custom may have. -/
def addSection : Nat × Module → Section → Option (Nat × Module)
  | (next, m), s =>
    if s.id = 0 then (Reader.text s.content).map fun _ => (next, m)
    else do
      let rank ← Reader.sectionRank? s.id
      if rank < next then none
      else return (rank + 1, ← Reader.all (Reader.sectionContent s.id m) s.content)

end Binary

/-- The module that the bytes hold. -/
def Module.ofBytes? (bytes : List UInt8) : Option Module := do
  let (_, m) ← (← Binary.sections? bytes).foldlM Binary.addSection (0, {})
  return m

end ScriptHost.Wasm

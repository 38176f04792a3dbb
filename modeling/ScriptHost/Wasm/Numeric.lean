import ScriptHost.Wasm.Types

/-!
# Numeric instructions

Every instruction that takes numbers from the stack and leaves one, with its opcode and
its name, and the types of what it takes and leaves.
-/

namespace ScriptHost.Wasm

/-- The width of an operand. -/
inductive Width where
  | w32
  | w64
  deriving DecidableEq, Repr, Inhabited

namespace Width

def bits : Width → Nat
  | w32 => 32
  | w64 => 64

def int : Width → ValType
  | w32 => .i32
  | w64 => .i64

def float : Width → ValType
  | w32 => .f32
  | w64 => .f64

end Width

inductive IntUnary where
  | clz
  | ctz
  | popcnt
  | extend (bits : Nat)
  deriving DecidableEq, Repr

inductive IntBinary where
  | add
  | sub
  | mul
  | divS
  | divU
  | remS
  | remU
  | and
  | or
  | xor
  | shl
  | shrS
  | shrU
  | rotl
  | rotr
  deriving DecidableEq, Repr

inductive IntCompare where
  | eq
  | ne
  | ltS
  | ltU
  | gtS
  | gtU
  | leS
  | leU
  | geS
  | geU
  deriving DecidableEq, Repr

inductive FloatUnary where
  | abs
  | neg
  | ceil
  | floor
  | trunc
  | nearest
  | sqrt
  deriving DecidableEq, Repr

inductive FloatBinary where
  | add
  | sub
  | mul
  | div
  | min
  | max
  | copysign
  deriving DecidableEq, Repr

inductive FloatCompare where
  | eq
  | ne
  | lt
  | gt
  | le
  | ge
  deriving DecidableEq, Repr

inductive Numeric where
  | eqz (w : Width)
  | intUnary (w : Width) (op : IntUnary)
  | intBinary (w : Width) (op : IntBinary)
  | intCompare (w : Width) (op : IntCompare)
  | floatUnary (w : Width) (op : FloatUnary)
  | floatBinary (w : Width) (op : FloatBinary)
  | floatCompare (w : Width) (op : FloatCompare)
  | wrap
  | extend (signed : Bool)
  | truncate (target source : Width) (signed saturating : Bool)
  | convert (target source : Width) (signed : Bool)
  | demote
  | promote
  | intOfBits (w : Width)
  | floatOfBits (w : Width)
  deriving DecidableEq, Repr

namespace Numeric

def intCompares : List (String × IntCompare) :=
  [("eq", .eq), ("ne", .ne), ("lt_s", .ltS), ("lt_u", .ltU), ("gt_s", .gtS), ("gt_u", .gtU),
    ("le_s", .leS), ("le_u", .leU), ("ge_s", .geS), ("ge_u", .geU)]

def intBinaries : List (String × IntBinary) :=
  [("add", .add), ("sub", .sub), ("mul", .mul), ("div_s", .divS), ("div_u", .divU),
    ("rem_s", .remS), ("rem_u", .remU), ("and", .and), ("or", .or), ("xor", .xor),
    ("shl", .shl), ("shr_s", .shrS), ("shr_u", .shrU), ("rotl", .rotl), ("rotr", .rotr)]

def floatCompares : List (String × FloatCompare) :=
  [("eq", .eq), ("ne", .ne), ("lt", .lt), ("gt", .gt), ("le", .le), ("ge", .ge)]

def floatUnaries : List (String × FloatUnary) :=
  [("abs", .abs), ("neg", .neg), ("ceil", .ceil), ("floor", .floor), ("trunc", .trunc),
    ("nearest", .nearest), ("sqrt", .sqrt)]

def floatBinaries : List (String × FloatBinary) :=
  [("add", .add), ("sub", .sub), ("mul", .mul), ("div", .div), ("min", .min), ("max", .max),
    ("copysign", .copysign)]

/-- Consecutive opcodes from `first` for the instructions of a list. -/
def numbered {α : Type} (first : Nat) (stem : String) (make : α → Numeric)
    (names : List (String × α)) : List (Nat × String × Numeric) :=
  names.zipIdx.map fun ((name, op), i) => (first + i, stem ++ name, make op)

/-- Every numeric instruction with its opcode and name; the saturating conversions, whose
opcodes have a second part `n`, stand at `0xfc00 + n`. -/
def table : List (Nat × String × Numeric) :=
  [(0x45, "i32.eqz", .eqz .w32)] ++
  numbered 0x46 "i32." (.intCompare .w32) intCompares ++
  [(0x50, "i64.eqz", .eqz .w64)] ++
  numbered 0x51 "i64." (.intCompare .w64) intCompares ++
  numbered 0x5b "f32." (.floatCompare .w32) floatCompares ++
  numbered 0x61 "f64." (.floatCompare .w64) floatCompares ++
  numbered 0x67 "i32." (.intUnary .w32) [("clz", .clz), ("ctz", .ctz), ("popcnt", .popcnt)] ++
  numbered 0x6a "i32." (.intBinary .w32) intBinaries ++
  numbered 0x79 "i64." (.intUnary .w64) [("clz", .clz), ("ctz", .ctz), ("popcnt", .popcnt)] ++
  numbered 0x7c "i64." (.intBinary .w64) intBinaries ++
  numbered 0x8b "f32." (.floatUnary .w32) floatUnaries ++
  numbered 0x92 "f32." (.floatBinary .w32) floatBinaries ++
  numbered 0x99 "f64." (.floatUnary .w64) floatUnaries ++
  numbered 0xa0 "f64." (.floatBinary .w64) floatBinaries ++
  [(0xa7, "i32.wrap_i64", .wrap),
    (0xa8, "i32.trunc_f32_s", .truncate .w32 .w32 true false),
    (0xa9, "i32.trunc_f32_u", .truncate .w32 .w32 false false),
    (0xaa, "i32.trunc_f64_s", .truncate .w32 .w64 true false),
    (0xab, "i32.trunc_f64_u", .truncate .w32 .w64 false false),
    (0xac, "i64.extend_i32_s", .extend true),
    (0xad, "i64.extend_i32_u", .extend false),
    (0xae, "i64.trunc_f32_s", .truncate .w64 .w32 true false),
    (0xaf, "i64.trunc_f32_u", .truncate .w64 .w32 false false),
    (0xb0, "i64.trunc_f64_s", .truncate .w64 .w64 true false),
    (0xb1, "i64.trunc_f64_u", .truncate .w64 .w64 false false),
    (0xb2, "f32.convert_i32_s", .convert .w32 .w32 true),
    (0xb3, "f32.convert_i32_u", .convert .w32 .w32 false),
    (0xb4, "f32.convert_i64_s", .convert .w32 .w64 true),
    (0xb5, "f32.convert_i64_u", .convert .w32 .w64 false),
    (0xb6, "f32.demote_f64", .demote),
    (0xb7, "f64.convert_i32_s", .convert .w64 .w32 true),
    (0xb8, "f64.convert_i32_u", .convert .w64 .w32 false),
    (0xb9, "f64.convert_i64_s", .convert .w64 .w64 true),
    (0xba, "f64.convert_i64_u", .convert .w64 .w64 false),
    (0xbb, "f64.promote_f32", .promote),
    (0xbc, "i32.reinterpret_f32", .intOfBits .w32),
    (0xbd, "i64.reinterpret_f64", .intOfBits .w64),
    (0xbe, "f32.reinterpret_i32", .floatOfBits .w32),
    (0xbf, "f64.reinterpret_i64", .floatOfBits .w64),
    (0xc0, "i32.extend8_s", .intUnary .w32 (.extend 8)),
    (0xc1, "i32.extend16_s", .intUnary .w32 (.extend 16)),
    (0xc2, "i64.extend8_s", .intUnary .w64 (.extend 8)),
    (0xc3, "i64.extend16_s", .intUnary .w64 (.extend 16)),
    (0xc4, "i64.extend32_s", .intUnary .w64 (.extend 32)),
    (0xfc00, "i32.trunc_sat_f32_s", .truncate .w32 .w32 true true),
    (0xfc01, "i32.trunc_sat_f32_u", .truncate .w32 .w32 false true),
    (0xfc02, "i32.trunc_sat_f64_s", .truncate .w32 .w64 true true),
    (0xfc03, "i32.trunc_sat_f64_u", .truncate .w32 .w64 false true),
    (0xfc04, "i64.trunc_sat_f32_s", .truncate .w64 .w32 true true),
    (0xfc05, "i64.trunc_sat_f32_u", .truncate .w64 .w32 false true),
    (0xfc06, "i64.trunc_sat_f64_s", .truncate .w64 .w64 true true),
    (0xfc07, "i64.trunc_sat_f64_u", .truncate .w64 .w64 false true)]

def ofCode? (code : Nat) : Option Numeric := (table.find? fun e => e.1 = code).map (·.2.2)

def codeOfName? (name : String) : Option Nat := (table.find? fun e => e.2.1 = name).map (·.1)

/-- The types of the operands, the first the deepest, and of the result. -/
def type : Numeric → List ValType × ValType
  | .eqz w => ([w.int], .i32)
  | .intUnary w _ => ([w.int], w.int)
  | .intBinary w _ => ([w.int, w.int], w.int)
  | .intCompare w _ => ([w.int, w.int], .i32)
  | .floatUnary w _ => ([w.float], w.float)
  | .floatBinary w _ => ([w.float, w.float], w.float)
  | .floatCompare w _ => ([w.float, w.float], .i32)
  | .wrap => ([.i64], .i32)
  | .extend _ => ([.i32], .i64)
  | .truncate target source _ _ => ([source.float], target.int)
  | .convert target source _ => ([source.int], target.float)
  | .demote => ([.f64], .f32)
  | .promote => ([.f32], .f64)
  | .intOfBits w => ([w.float], w.int)
  | .floatOfBits w => ([w.int], w.float)

end Numeric

end ScriptHost.Wasm

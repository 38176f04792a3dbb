import ScriptHost.Wasm.Types

/-!
# Module text as it is written

The fields of a module in the order of the text, with names where they are written and
code as a flat list of instructions. Types of values stand for themselves by their code,
also those that no module here can use.
-/

namespace ScriptHost.Wasm.Text

/-- What numbers and names can refer to. -/
inductive Space where
  | type
  | function
  | table
  | memory
  | global
  | element
  | data
  | local_
  | label
  deriving DecidableEq

/-- The name of a space in messages. -/
def Space.name : Space → String
  | type => "type"
  | function => "func"
  | table => "table"
  | memory => "memory"
  | global => "global"
  | element => "elem"
  | data => "data"
  | local_ => "local"
  | label => "label"

/-- A name with its place. -/
structure Id where
  name : String
  place : Nat

/-- A reference by number or by name. -/
inductive Ref where
  | number (n : Nat)
  | named (id : Id)

/-- Parameters, which may have names, and results. -/
structure Signature where
  params : List (Option Id × UInt8)
  results : List UInt8
  deriving Inhabited

/-- The types without names. -/
def Signature.key (s : Signature) : List UInt8 × List UInt8 := (s.params.map (·.2), s.results)

/-- A type of functions by reference, written out, or both; the place is that of the
reference. -/
structure TypeUse where
  ref : Option Ref := none
  place : Nat := 0
  signature : Option Signature := none
  deriving Inhabited

/-- A part of an instruction behind its opcode. -/
inductive Operand where
  | ref (space : Space) (r : Ref)
  | use (u : TypeUse)
  | access (align : Nat) (memory : Ref) (offset : Nat)
  | unsigned (n : Nat)
  | signed (i : Int)
  | raw (bytes : List UInt8)

inductive Instr where
  | plain (opcode : List UInt8) (operands : List Operand)
  | enter (opcode : UInt8) (label : Option Id) (type : TypeUse)
  | otherwise (label : Option Id)
  | leave (label : Option Id)

abbrev Code := List Instr

/-- When a segment is copied, as in `SegmentMode`. -/
inductive Mode where
  | active (target : Ref) (offset : Code)
  | passive
  | declared

/-- Elements by reference, or by expressions of some type. -/
inductive Items where
  | refs (functions : List Ref)
  | expressions (type : UInt8) (items : List Code)

/-- What an import has to be. -/
inductive Wanted where
  | func (type : TypeUse)
  | table (type : UInt8) (limits : Limits)
  | memory (limits : Limits)
  | global (type : UInt8) (mutable : Bool)

inductive Content where
  | type (signature : Signature)
  | import (module name : String) (wanted : Wanted)
  | func (type : TypeUse) (locals : List (Option Id × UInt8)) (code : Code)
  | table (type : UInt8) (limits : Limits)
  | memory (limits : Limits)
  | global (type : UInt8) (mutable : Bool) (init : Code)
  | export (name : String) (kind : ExternKind) (r : Ref)
  | start (r : Ref)
  | elements (mode : Mode) (items : Items)
  | data (mode : Mode) (bytes : List UInt8)

/-- A field with its name, its place, and the names that it is exported by. A memory or table
may bring the segment that fills it. -/
structure Field where
  id : Option Id := none
  place : Nat := 0
  exports : List String := []
  content : Content
  segment : Option (List UInt8 ⊕ Items) := none

/-- The kind of numbers that a field counts among. -/
def Content.space? : Content → Option Space
  | .type _ => some .type
  | .import _ _ (.func _) | .func _ _ _ => some .function
  | .import _ _ (.table _ _) | .table _ _ => some .table
  | .import _ _ (.memory _) | .memory _ => some .memory
  | .import _ _ (.global _ _) | .global _ _ _ => some .global
  | .elements _ _ => some .element
  | .data _ _ => some .data
  | .export _ _ _ | .start _ => none

/-- A module: fields under a name, or the bytes of a binary. -/
inductive Source where
  | fields (id : Option Id) (fields : List Field)
  | binary (bytes : List UInt8)

end ScriptHost.Wasm.Text

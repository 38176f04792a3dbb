import Std.Data.HashMap
import ScriptHost.Wasm.Types

/-!
# Linear memory

A memory is a number of pages and the bytes that were written to it; all others are zero.
Ranges are read and written as a whole or, if they do not lie inside, not at all.
-/

namespace ScriptHost.Wasm

/-- The bytes of a page. -/
def pageSize : Nat := 65536

structure Memory where
  pages : Nat
  max : Option Nat := none
  cells : Std.HashMap Nat UInt8 := ∅
  deriving Inhabited

namespace Memory

def ofLimits (l : Limits) : Memory := { pages := l.min, max := l.max }

def size (m : Memory) : Nat := m.pages * pageSize

def get (m : Memory) (i : Nat) : UInt8 := m.cells.getD i 0

/-- The bytes of a range. -/
def bytesAt (m : Memory) (address : Nat) : Nat → List UInt8
  | 0 => []
  | n + 1 => m.get address :: bytesAt m (address + 1) n

/-- The bytes of a range that lies inside the memory. -/
def read? (m : Memory) (address n : Nat) : Option (List UInt8) :=
  if address + n ≤ m.size then some (m.bytesAt address n) else none

/-- The memory with bytes from an address on. -/
def put (m : Memory) (address : Nat) : List UInt8 → Memory
  | [] => m
  | b :: rest => put { m with cells := m.cells.insert address b } (address + 1) rest

/-- The memory with bytes from an address on, if they lie inside. -/
def write? (m : Memory) (address : Nat) (bytes : List UInt8) : Option Memory :=
  if address + bytes.length ≤ m.size then some (m.put address bytes) else none

/-- The memory with more pages, if there may be as many. -/
def grow? (m : Memory) (pages : Nat) : Option Memory :=
  if m.pages + pages ≤ m.max.getD 65536 then some { m with pages := m.pages + pages } else none

end Memory

end ScriptHost.Wasm

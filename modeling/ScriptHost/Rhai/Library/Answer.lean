import ScriptHost.Rhai.Operation

/-!
# Answers of functions

A function of the library answers with a value, and possibly with what has become of its first
argument.
-/

namespace ScriptHost.Rhai

structure Answer where
  value : Value := .unit
  changed : Option Value := none

abbrev Answered := Except Problem Answer

namespace Answer

/-- An answer that changes nothing. -/
def give (v : Value) : Option Answered := some (.ok { value := v })

/-- A change that answers nothing. -/
def change (v : Value) : Option Answered := some (.ok { changed := some v })

/-- A change with an answer. -/
def both (value changed : Value) : Option Answered := some (.ok ⟨value, some changed⟩)

def fail (p : Problem) : Option Answered := some (.error p)

def int (n : Int) : Option Answered := give (.int (.ofInt n))
def bool (b : Bool) : Option Answered := give (.bool b)
def text (s : String) : Option Answered := give (.text s)

end Answer

/-- The place that an index stands for among so many, counted from the end if it is
negative. -/
def place? (length : Nat) (i : Int) : Option Nat :=
  let n := if i < 0 then length + i else i
  if 0 ≤ n ∧ n < length then some n.toNat else none

/-- The first place and number of the items that a start and a length ask for. -/
def window (length : Nat) (start count : Int) : Nat × Nat :=
  let first : Nat := (if start < 0 then length + start else start).toNat
  if length ≤ first ∨ count ≤ 0 then (min first length, 0)
  else (first, min count.toNat (length - first))

/-- The start and length of a range. -/
def rangeWindow (first last : Int64) (closed : Bool) : Int × Int :=
  (first.toInt, last.toInt - first.toInt + if closed then 1 else 0)

end ScriptHost.Rhai

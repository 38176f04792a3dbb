/-!
# Writing the binary format

Numbers in groups of seven bits, lists behind their lengths, and sections, which stand only
where they hold something.
-/

namespace ScriptHost.Wasm.Binary.Writer

/-- A natural number in the shortest form, the lowest group first. -/
def unsigned (n : Nat) : List UInt8 :=
  if n < 128 then [n.toUInt8] else (n % 128 + 128).toUInt8 :: unsigned (n / 128)
termination_by n

/-- An integer in the shortest form: the second highest bit of the last group is its sign. -/
def signed (i : Int) : List UInt8 :=
  if -64 ≤ i ∧ i < 64 then [(i % 128).toNat.toUInt8]
  else ((i % 128).toNat + 128).toUInt8 :: signed (i / 128)
termination_by i.natAbs
decreasing_by omega

/-- Bytes behind their number. -/
def sized (bytes : List UInt8) : List UInt8 := unsigned bytes.length ++ bytes

def text (s : String) : List UInt8 := sized s.toUTF8.toList

/-- Written things behind their number. -/
def vector (items : List (List UInt8)) : List UInt8 := unsigned items.length ++ items.flatten

/-- A section with its content. -/
def section_ (id : UInt8) (content : List UInt8) : List UInt8 := id :: sized content

/-- A section with a list, if there is anything in it. -/
def listSection (id : UInt8) (items : List (List UInt8)) : List UInt8 :=
  if items.isEmpty then [] else section_ id (vector items)

/-- Consecutive equal things as runs. -/
def runs : List UInt8 → List (Nat × UInt8)
  | [] => []
  | t :: rest =>
    match runs rest with
    | (n, u) :: more => if t = u then (n + 1, u) :: more else (1, t) :: (n, u) :: more
    | [] => [(1, t)]

end ScriptHost.Wasm.Binary.Writer

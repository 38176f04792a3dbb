import ScriptHost.Wasm.Binary.Reader

/-!
# Names of locals

A custom section called `name` gives names to things of the module, among them the locals
of its functions. It is advice: nothing about it makes a module invalid, and where it is
broken the names before that place count.
-/

namespace ScriptHost.Wasm.Binary

/-- A function, one of its locals, and the name of the local. -/
structure LocalName where
  function : Nat
  index : Nat
  name : String
  deriving DecidableEq

namespace LocalName

/-- Up to `n` things one after the other, as far as none is broken. -/
def someOf {α : Type} (item : Reader α) : Nat → List UInt8 → List α
  | 0, _ => []
  | n + 1, bytes =>
    match item bytes with
    | some (a, rest) => a :: someOf item n rest
    | none => []

/-- A function with the numbers and names of its locals, which need not be text. -/
def entry : Reader (Nat × List (Nat × List UInt8)) := do
  return (← Reader.u32, ← Reader.vector do return (← Reader.u32, ← Reader.nameBytes))

/-- The names of an entry up to the first that is not text. -/
def ofEntry (function : Nat) : List (Nat × List UInt8) → List LocalName
  | [] => []
  | (index, bytes) :: rest =>
    match String.fromUTF8? ⟨bytes.toArray⟩ with
    | some name => ⟨function, index, name⟩ :: ofEntry function rest
    | none => []

/-- What a subsection gives: nothing if it is broken from the start. The kinds up to 11 are
known; the module's own name is the first, those of locals the third. -/
def ofSubsection (kind : Nat) (content : List UInt8) : Option (List LocalName) :=
  if kind = 0 then (Reader.all Reader.text content).map fun _ => []
  else if kind = 2 then do
    let (n, rest) ← Reader.u32 content
    return (someOf entry n rest).flatMap fun (function, locals) => ofEntry function locals
  else if kind ≤ 11 then (Reader.u32 content).map fun _ => []
  else some []

/-- The names of the subsections before the first that is broken. -/
def ofSubsections : Nat → List UInt8 → List LocalName
  | 0, _ => []
  | fuel + 1, bytes =>
    let head : Reader (UInt8 × List UInt8) := do
      return (← Reader.byte, ← Reader.take (← Reader.u32))
    match head bytes with
    | none => []
    | some ((kind, content), rest) =>
      if kind < 128 then
        match ofSubsection kind.toNat content with
        | some names => names ++ ofSubsections fuel rest
        | none => []
      else []

/-- The names of a section: none unless it is custom and called `name`. -/
def ofSection (s : Section) : List LocalName :=
  if s.id = 0 then
    match Reader.text s.content with
    | some ("name", rest) => ofSubsections rest.length rest
    | _ => []
  else []

end LocalName

/-- The names of locals in a binary, in order. -/
def localNames (bytes : List UInt8) : List LocalName :=
  ((sections? bytes).getD []).flatMap LocalName.ofSection

/-- The name of a local; of two the later counts. -/
def nameOf? (names : List LocalName) (function index : Nat) : Option String :=
  (names.reverse.find? fun n => n.function = function ∧ n.index = index).map LocalName.name

end ScriptHost.Wasm.Binary

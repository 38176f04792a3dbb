/-!
# Paths

A path is a text whose parts stand between slashes. Empty parts and parts that are a
single dot say nothing and are passed over, except that a relative path may begin with a
dot. Nothing here looks at a file system.
-/

namespace ScriptHost.Path

/-- Does the path begin at the root? -/
def isRooted : List Char → Bool
  | '/' :: _ => true
  | _ => false

/-- The number of characters before the first part: the slash of the root, or a dot that
stands alone at the start. -/
def headLength : List Char → Nat
  | '/' :: _ => 1
  | ['.'] => 1
  | '.' :: '/' :: _ => 1
  | _ => 0

/-- The last part of a text after its last slash, and the text before that slash. -/
def splitLast (cs : List Char) : List Char × List Char :=
  let part := (cs.reverse.takeWhile (· ≠ '/')).reverse
  (cs.take (cs.length - part.length - 1), part)

/-- A path split before its last part that says something: the text before it, cut after
the part before, and that part. -/
structure Cut where
  before : List Char
  part : List Char

/-- The text without the parts at its end that say nothing. `body` is what stands after
the head. -/
def trimBody (body : List Char) : List Char :=
  if body = [] then []
  else
    let (before, part) := splitLast body
    if part = [] ∨ part = ['.'] then
      if before.length < body.length then trimBody before else []
    else body
termination_by body.length

/-- Cuts off the last part; none if only the head is left. -/
def cut? (path : List Char) : Option Cut :=
  let n := headLength path
  let body := trimBody (path.drop n)
  if body = [] then none
  else
    let (before, part) := splitLast body
    some ⟨path.take n ++ trimBody before, part⟩

/-- The directory that the path stands in: none for the root and the empty path. -/
def parentChars? (path : List Char) : Option (List Char) :=
  match cut? path with
  | some c => some c.before
  | none => if isRooted path ∨ path = [] then none else some []

/-- The last part, unless that leads upwards. -/
def fileNameChars? (path : List Char) : Option (List Char) :=
  match cut? path with
  | some c => if c.part = ['.', '.'] then none else some c.part
  | none => none

/-- A name split at its last dot; a dot at the very start does not count. -/
def splitName (name : List Char) : List Char × Option (List Char) :=
  let after := (name.reverse.takeWhile (· ≠ '.')).reverse
  if after.length = name.length ∨ after.length + 1 = name.length then (name, none)
  else (name.take (name.length - after.length - 1), some after)

/-- The directory of the path, empty if it has none. -/
def directory (path : String) : String :=
  ((parentChars? path.toList).map String.ofList).getD ""

/-- The last part of the path without its extension. -/
def stem? (path : String) : Option String :=
  (fileNameChars? path.toList).map fun name => String.ofList (splitName name).1

/-- What follows the last dot of the last part. -/
def extension? (path : String) : Option String :=
  (fileNameChars? path.toList).bind fun name => (splitName name).2.map String.ofList

/-- The parts of the path that say something, in order. -/
def parts (path : String) : List String :=
  ((path.splitOn "/").filter fun part => part ≠ "" ∧ part ≠ ".")

end ScriptHost.Path

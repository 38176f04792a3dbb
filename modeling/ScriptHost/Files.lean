import ScriptHost.Path

/-!
# Files

The files that scripts, modules and settings are read from: a tree below a root, with a
working directory from which relative paths lead. A path is followed name by name;
everything on its way has to be a directory.
-/

namespace ScriptHost

/-- What stands at a place of the tree. -/
inductive Files.Node where
  | directory
  | file (content : ByteArray)

/-- A tree of files by their full names. The working directory is the directory `.` below
the root. -/
structure Files where
  nodes : List (List String × Files.Node)

namespace Files

/-- Why a file cannot be read or made. -/
inductive Fault where
  | notFound
  | notDirectory
  | isDirectory
  | alreadyExists
  | notText
  deriving DecidableEq

def Fault.message : Fault → String
  | .notFound => "No such file or directory (os error 2)"
  | .notDirectory => "Not a directory (os error 20)"
  | .isDirectory => "Is a directory (os error 21)"
  | .alreadyExists => "File exists (os error 17)"
  | .notText => "stream did not contain valid UTF-8"

/-- The full name of the working directory. -/
def workingName : List String := ["."]

/-- A tree that holds the working directory and nothing else. -/
def empty : Files := ⟨[(workingName, .directory)]⟩

instance : Inhabited Files := ⟨empty⟩

/-- What stands at a full name. -/
def node? (files : Files) (name : List String) : Option Node :=
  if name = [] then some .directory else files.nodes.lookup name

/-- The full name that a path begins from. -/
def origin (path : String) : List String := if path.startsWith "/" then [] else workingName

/-- Follows the parts of a path from a directory. -/
def follow (files : Files) (here : List String) : List String → Except Fault (List String)
  | [] => .ok here
  | part :: rest =>
    match files.node? here with
    | none => .error .notFound
    | some (.file _) => .error .notDirectory
    | some .directory =>
      if part = "" ∨ part = "." then files.follow here rest
      else if part = ".." then files.follow here.dropLast rest
      else files.follow (here ++ [part]) rest

/-- The full name that a path leads to. -/
def resolve (files : Files) (path : String) : Except Fault (List String) :=
  if path = "" then .error .notFound else files.follow (origin path) (path.splitOn "/")

/-- The bytes of the file at a path. -/
def read (files : Files) (path : String) : Except Fault ByteArray := do
  let name ← files.resolve path
  match files.node? name with
  | none => .error .notFound
  | some .directory => .error .isDirectory
  | some (.file content) => .ok content

/-- The text of the file at a path. -/
def readText (files : Files) (path : String) : Except Fault String := do
  let content ← files.read path
  match String.fromUTF8? content with
  | some text => .ok text
  | none => .error .notText

/-- Is there a file at the path? -/
def isFile (files : Files) (path : String) : Bool :=
  match files.read path with
  | .ok _ => true
  | .error _ => false

/-- The tree with a node at a full name. -/
def put (files : Files) (name : List String) (node : Node) : Files :=
  ⟨(name, node) :: files.nodes.filter (·.1 ≠ name)⟩

/-- Makes every directory on the way of the parts. A file in the way is no directory, and keeps
one of its name from being made. -/
def makeDirectories (files : Files) (here : List String) :
    List String → Except Fault (Files × List String)
  | [] => .ok (files, here)
  | part :: rest =>
    if part = "" ∨ part = "." then files.makeDirectories here rest
    else if part = ".." then files.makeDirectories here.dropLast rest
    else
      let name := here ++ [part]
      match files.node? name with
      | some .directory => files.makeDirectories name rest
      | some (.file _) => .error (if rest.all (· = "") then .alreadyExists else .notDirectory)
      | none => (files.put name .directory).makeDirectories name rest

/-- The tree with a file at a path, its directories made; unchanged if that cannot be. -/
def write (files : Files) (path : String) (content : ByteArray) : Files :=
  let parts := path.splitOn "/"
  match files.makeDirectories (origin path) parts.dropLast with
  | .error _ => files
  | .ok (made, directory) =>
    let last := parts.getLastD ""
    if last = "" ∨ last = "." ∨ last = ".." then made
    else
      match made.node? (directory ++ [last]) with
      | some .directory => made
      | _ => made.put (directory ++ [last]) (.file content)

/-- Makes sure that there is a file at a path, its directories made if need be. -/
def touch (files : Files) (path : String) : Except Fault Files := do
  let parent := Path.directory path
  let (made, _) ← files.makeDirectories (origin parent) (parent.splitOn "/")
  match made.resolve path with
  | .error fault => .error fault
  | .ok name =>
    match made.node? name, path.endsWith "/" with
    | some .directory, _ | none, true => .error .isDirectory
    | some (.file _), true => .error .notDirectory
    | some (.file _), false => return made
    | none, false => return made.put name (.file .empty)

/-- The tree with text at the end of the file at a path. -/
def append (files : Files) (path : String) (text : String) : Files :=
  match files.resolve path with
  | .error _ => files
  | .ok name =>
    match files.node? name with
    | some (.file content) => files.put name (.file (content ++ text.toUTF8))
    | _ => files

/-- The tree without the file at a path. -/
def remove (files : Files) (path : String) : Files :=
  match files.resolve path with
  | .ok name =>
    match files.node? name with
    | some (.file _) => ⟨files.nodes.filter (·.1 ≠ name)⟩
    | _ => files
  | .error _ => files

end Files

end ScriptHost

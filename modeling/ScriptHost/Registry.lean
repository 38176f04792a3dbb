import ScriptHost.Files
import ScriptHost.Log
import ScriptHost.Path
import ScriptHost.Wasm.Compiled

/-!
# The registry of modules

Modules that were loaded once stay known by name, in the order in which their names came
up. Bytes that are known already are not compiled again: their module is found by digest.
-/

namespace ScriptHost

open Wasm (Compiled)

structure Registry where
  modules : List Compiled := []
  byDigest : List (Digest.State × Compiled) := []

instance : Inhabited Registry := ⟨{}⟩

/-- Why a module cannot be had. -/
inductive ModuleError where
  | unreadable (path : String) (fault : Files.Fault)
  | unnamed (path : String)
  | invalid (name : String)
  deriving DecidableEq

def ModuleError.message : ModuleError → String
  | .unreadable path fault => "failed to read wasm module " ++ path ++ ": " ++ fault.message
  | .unnamed path => "wasm module path " ++ path ++ " has no file name"
  | .invalid name => "failed to compile wasm module \x60" ++ name ++ "\x60: <invalid module>"

/-- Compiles bytes under a name. -/
def compileModule (name : String) (bytes : List UInt8) : Except ModuleError Compiled :=
  match Compiled.compile? name bytes with
  | some c => .ok c
  | none => .error (.invalid name)

namespace Registry

def empty : Registry := {}

/-- The module of a name. -/
def find? (r : Registry) (name : String) : Option Compiled :=
  r.modules.find? fun c => c.name = name

/-- Puts a module in the place of the one of its name, or behind all others. -/
def place (c : Compiled) : List Compiled → List Compiled
  | [] => [c]
  | d :: rest => if d.name = c.name then c :: rest else d :: place c rest

/-- Registers a module; the one of its name before is forgotten. -/
def insert (r : Registry) (c : Compiled) : Registry where
  modules := place c r.modules
  byDigest :=
    let kept := match r.find? c.name with
      | some old => r.byDigest.filter fun entry => entry.1 ≠ old.digest
      | none => r.byDigest
    kept ++ [(c.digest, c)]

/-- The module of the bytes: the one that is known, or a new one under the name. -/
def getOrCompile (r : Registry) (name : String) (bytes : List UInt8) :
    Except ModuleError (Registry × Compiled) :=
  match r.byDigest.lookup (Digest.sha256 bytes) with
  | some known => .ok (r, known)
  | none =>
    match compileModule name bytes with
    | .ok c => .ok (r.insert c, c)
    | .error e => .error e

/-- The module in a file, named after the file. -/
def loadFile (r : Registry) (files : Files) (path : String) :
    Except ModuleError (Registry × Compiled) :=
  match files.read path with
  | .error fault => .error (.unreadable path fault)
  | .ok content =>
    match Path.stem? path with
    | none => .error (.unnamed path)
    | some name => r.getOrCompile name content.toList

end Registry

end ScriptHost

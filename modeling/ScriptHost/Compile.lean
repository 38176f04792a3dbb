import ScriptHost.Engine
import ScriptHost.ModuleForm
import ScriptHost.Preprocess
import ScriptHost.Registry
import ScriptHost.Wasm.Text.Encode

/-!
# Compiling sources

The sources of compiled scripts are expanded, translated to a binary module and compiled.
What the module imports has to be on offer, or it is not accepted.
-/

namespace ScriptHost

open Wasm (Compiled)

/-- The languages of compiled scripts: module texts, and test scripts, of which the first
module counts. -/
inductive Language where
  | wat
  | wast
  deriving DecidableEq, Repr

namespace Language

def name : Language → String
  | wat => "wat"
  | wast => "wast"

/-- The language that an engine compiles. -/
def ofEngine? : Engine → Option Language
  | .wat => some wat
  | .wast => some wast
  | _ => none

end Language

/-- Why a source cannot be translated; `path` only says where it is from. -/
inductive TranslateError where
  | noModule (path : String)
  | mistake (path source : String) (m : Wasm.Text.Mistake)
  deriving DecidableEq

def TranslateError.message : TranslateError → String
  | .noModule path => path ++ ": script contains no (module ...) form"
  | .mistake path source m => m.message path source

/-- The binary of a module text. -/
def translateText (path source : String) : Except TranslateError (List UInt8) :=
  (Wasm.Text.encode source).mapError (.mistake path source)

/-- The binary of a source. -/
def Language.translate (language : Language) (path source : String) :
    Except TranslateError (List UInt8) :=
  match language with
  | wat => translateText path source
  | wast =>
    match ModuleForm.extract? source with
    | none => .error (.noModule path)
    | some text => translateText path text

/-- Why a script is not compiled. -/
inductive CompileError where
  | unreadable (path : String) (fault : Files.Fault)
  | reference (path : String) (e : ModuleError)
  | noFrontEnd (engine : Engine)
  | preprocess (path : String) (e : Preprocess.Error)
  | translate (e : TranslateError)
  | module (e : ModuleError)
  | unresolved (imports : List String)

def CompileError.message : CompileError → String
  | .unreadable path fault => "failed to read " ++ path ++ ": " ++ fault.message
  | .reference path e => "failed to load reference " ++ path ++ ": " ++ e.message
  | .noFrontEnd engine => "no compiler front-end for \x60" ++ engine.name ++ "\x60"
  | .preprocess path e => "failed to preprocess " ++ path ++ ": " ++ e.message
  | .translate e => e.message
  | .module e => e.message
  | .unresolved imports => "unresolved imports: " ++ ", ".intercalate imports

/-- Compiles a source with the symbols that are defined. The module is named after the file. -/
def compileSource (defines : List String) (engine : Engine) (path source : String)
    (references : List Compiled) : Except CompileError Compiled := do
  match Language.ofEngine? engine with
  | none => throw (.noFrontEnd engine)
  | some language =>
    let expanded ← (Preprocess.expand defines source).mapError (.preprocess path)
    let bytes ← (language.translate path expanded).mapError .translate
    let c ← (compileModule ((Path.stem? path).getD "script") bytes).mapError .module
    match c.unresolvedImports references with
    | [] => return c
    | imports => throw (.unresolved imports)

end ScriptHost

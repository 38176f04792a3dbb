import ScriptHost.Lua.Library.Basics
import ScriptHost.Lua.Library.CodePoints
import ScriptHost.Lua.Library.Maths
import ScriptHost.Lua.Library.Strings
import ScriptHost.Lua.Library.System
import ScriptHost.Lua.Library.Tables
import ScriptHost.Lua.Library.Threads
import ScriptHost.Lua.Operation

/-!
# The libraries

Every function with its name, the tables that they stand in, and the store that a new
interpreter begins with.
-/

namespace ScriptHost.Lua

namespace Library

def basics : List (String × BaseFunction) :=
  [("assert", .assert), ("collectgarbage", .collectgarbage), ("dofile", .dofile),
    ("error", .error), ("getmetatable", .getmetatable), ("ipairs", .ipairs), ("load", .load),
    ("loadfile", .loadfile), ("next", .next), ("pairs", .pairs), ("pcall", .pcall),
    ("print", .print), ("rawequal", .rawequal), ("rawget", .rawget), ("rawlen", .rawlen),
    ("rawset", .rawset), ("require", .require), ("select", .select),
    ("setmetatable", .setmetatable), ("tonumber", .tonumber), ("tostring", .tostring),
    ("type", .type), ("warn", .warn), ("xpcall", .xpcall)]

def strings : List (String × StringFunction) :=
  [("byte", .byte), ("char", .char), ("dump", .dump), ("find", .find), ("format", .format),
    ("gmatch", .gmatch), ("gsub", .gsub), ("len", .len), ("lower", .lower), ("match", .match_),
    ("pack", .pack), ("packsize", .packsize), ("rep", .rep), ("reverse", .reverse),
    ("sub", .sub), ("unpack", .unpack), ("upper", .upper)]

def tables : List (String × TableFunction) :=
  [("concat", .concat), ("insert", .insert), ("move", .move), ("pack", .pack),
    ("remove", .remove), ("sort", .sort), ("unpack", .unpack)]

def maths : List (String × MathFunction) :=
  [("abs", .abs), ("acos", .acos), ("asin", .asin), ("atan", .atan), ("ceil", .ceil),
    ("cos", .cos), ("deg", .deg), ("exp", .exp), ("floor", .floor), ("fmod", .fmod),
    ("log", .log), ("max", .max), ("min", .min), ("modf", .modf), ("rad", .rad),
    ("random", .random), ("randomseed", .randomseed), ("sin", .sin), ("sqrt", .sqrt),
    ("tan", .tan), ("tointeger", .tointeger), ("type", .type), ("ult", .ult)]

def coroutines : List (String × CoroutineFunction) :=
  [("close", .close), ("create", .create), ("isyieldable", .isyieldable), ("resume", .resume),
    ("running", .running), ("status", .status), ("wrap", .wrap), ("yield", .yield)]

def codePoints : List (String × Utf8Function) :=
  [("char", .char), ("codepoint", .codepoint), ("codes", .codes), ("len", .len),
    ("offset", .offset)]

def system : List (String × SystemFunction) :=
  [("clock", .clock), ("date", .date), ("difftime", .difftime), ("execute", .execute),
    ("exit", .exit), ("getenv", .getenv), ("remove", .remove), ("rename", .rename),
    ("setlocale", .setlocale), ("time", .time), ("tmpname", .tmpname)]

def files : List (String × FileFunction) :=
  [("close", .close), ("flush", .flush), ("input", .input), ("lines", .lines),
    ("open", .open_), ("output", .output), ("popen", .popen), ("read", .read),
    ("tmpfile", .tmpfile), ("type", .type), ("write", .write)]

/-- The functions of a library as fields. -/
def fieldsOf {α : Type} (wrap : α → Builtin) (fs : List (String × α)) : List (String × Value) :=
  fs.map fun (name, f) => (name, .builtin (wrap f))

/-- The libraries with what they hold. -/
def all : List (String × List (String × Value)) :=
  [("string", fieldsOf .string strings),
    ("table", fieldsOf .table tables),
    ("math", fieldsOf .math maths ++
      [("pi", .float Maths.pi), ("huge", .float (1.0 / 0.0)), ("maxinteger", .int Int64.maxValue),
        ("mininteger", .int Int64.minValue)]),
    ("coroutine", fieldsOf .coroutine coroutines),
    ("utf8", fieldsOf .utf8 codePoints ++ [("charpattern", .string CodePoints.charPattern)]),
    ("os", fieldsOf .system system),
    ("io", fieldsOf .file files)]

/-- The name of a function after that of its library, none for functions outside of all. -/
def qualifiedName? (f : Builtin) : Option String :=
  let among (library : String) (fields : List (String × Value)) : Option String :=
    (fields.find? fun field => field.2.rawEquals (.builtin f)).map fun field =>
      if library = "" then field.1 else library ++ "." ++ field.1
  (among "" (fieldsOf .base basics)).or (all.findSome? fun (library, fields) =>
    among library fields)

/-- What a function does. -/
def run (f : Builtin) (s : Store) (args : Args) : Native :=
  match f with
  | .base f => Basics.run f s args
  | .string f => Strings.run f s args
  | .table f => Tables.run f s args
  | .math f => Maths.run f s args
  | .coroutine f => Threads.run f s args
  | .utf8 f => CodePoints.run f s args
  | .system f => System.run f s args
  | .file f => System.runFile f s args
  | .searchpath | .loadlib =>
    .done s [.nil, .string "dynamic libraries not enabled", .string "absent"]
  | .stringArithmetic op => Strings.trial Arithmetic.compute op s args
  | .nextIndex => Basics.nextIndex s args
  | .nextCode => .ofPlain CodePoints.nextCode s args
  | .nextMatch text pattern position last =>
    .ofPlain (Strings.stepMatches text pattern position last) s args
  | .wrapped thread => Threads.wrapped thread s args
  | .printer sink _ => Basics.print sink s args
  | .silent _ => .done s []

/-- The fields of the globals besides the libraries. -/
def globalFields : List (String × Value) :=
  fieldsOf .base basics ++ [("_VERSION", .string "Lua 5.4"), ("_G", .table Store.globals)]

/-- The address of a library's table; the first ones are those of every store. -/
def address (i : Nat) : Nat := 3 + i

def packageAddress : Nat := address all.length
def loadedAddress : Nat := packageAddress + 1
def preloadAddress : Nat := packageAddress + 2

/-- The address of the table of the string library. -/
def stringAddress : Nat := address 0

/-- The tables that a store begins with: the globals, the metatables of strings and lists, the
libraries, and those of loaded modules. -/
def initialTables : List Table :=
  let libraryFields : List (String × Value) :=
    all.zipIdx.map fun ((name, _), i) => (name, .table (address i))
  let globals := .ofFields
    (globalFields ++ libraryFields ++ [("package", .table packageAddress)])
  let stringMeta := .ofFields
    (("__index", .table stringAddress) :: Arithmetic.ofStrings.map fun op =>
      ("__" ++ op.name, .builtin (.stringArithmetic op)))
  let listMeta := .ofFields [("__metatable", .bool false)]
  let package := .ofFields
    [("config", .string "/\n;\n?\n!\n-\n"), ("cpath", .string ""),
      ("path", .string (Bytes.ofString Basics.searchPath)), ("loaded", .table loadedAddress),
      ("preload", .table preloadAddress), ("searchpath", .builtin .searchpath),
      ("loadlib", .builtin .loadlib)]
  let loaded := .ofFields
    (("_G", .table Store.globals) :: libraryFields ++ [("package", .table packageAddress)])
  globals :: stringMeta :: listMeta :: all.map (fun (_, fields) => .ofFields fields) ++
    [package, loaded, .ofFields []]

end Library

/-- The store of a new interpreter. -/
def Store.initial : Store :=
  { tables := Library.initialTables.toArray
    cells := ((Maths.seeded 0 0).map fun (w : UInt64) => Value.int (.ofUInt64 w)).toArray
    threads := #[.running] }

end ScriptHost.Lua

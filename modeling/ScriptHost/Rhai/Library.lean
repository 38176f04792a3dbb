import ScriptHost.Rhai.Library.Collections
import ScriptHost.Rhai.Library.Numbers
import ScriptHost.Rhai.Library.Texts

/-!
# The library

Functions go by the type of their first argument. Those that change it do not work on a
constant.
-/

namespace ScriptHost.Rhai.Library

open Answer

/-- A function of any value. -/
def ofAny? (v : Value) (name : String) (args : List Value) : Option Answered :=
  match name, args with
  | "to_string", [] => text v.plainText
  | "to_debug", [] => text v.innerText
  | "type_of", [] => text v.typeName
  | _, _ => none

/-- A function of a value of its type. -/
def ofType? (v : Value) (name : String) (args : List Value) : Option Answered :=
  match v with
  | .text s => Texts.ofText? s name args
  | .char c => Texts.ofChar? c name args
  | .array items => Collections.ofArray? items name args
  | .map fields => Collections.ofMap? fields name args
  | .range first last closed => Collections.ofRange? first last closed name args
  | .int n => Numbers.ofInt? n name args
  | .float x => Numbers.ofFloat? x name args
  | .function f bound =>
    match name, args with
    | "curry", more => give (.function f (bound ++ more))
    | "name", [] => text f
    | "is_anonymous", [] => bool (f.startsWith "anon$")
    | _, _ => none
  | _ => none

/-- A function of the library, if there is one for the arguments. -/
def find? (name : String) (args : List Value) : Option Answered :=
  match name, args with
  | "range", [.int a, .int b, .int step] =>
    give (.array (Collections.stepped a.toInt b.toInt step.toInt))
  | "PI", [] => give (.float 3.141592653589793)
  | "E", [] => give (.float 2.718281828459045)
  | "Fn", [.text s] => give (.function s [])
  | name, v :: rest =>
    match ofType? v name rest with
    | some r => some r
    | none => ofAny? v name rest
  | _, [] => none

/-- The functions that change their first argument. -/
def changing : List String :=
  ["push", "append", "insert", "pop", "shift", "remove", "set", "reverse", "clear", "truncate",
    "chop", "pad", "drain", "retain", "splice", "dedup", "sort", "make_upper", "make_lower", "trim",
    "crop", "replace", "mixin", "fill_with"]

/-- What a property is without a field of its name. -/
def property? (v : Value) (name : String) : Option Answered :=
  let known := match v with
    | .text _ => ["len", "is_empty", "bytes", "chars"]
    | .array _ => ["len", "is_empty"]
    | .int _ => ["is_zero", "is_odd", "is_even"]
    | .float _ =>
      ["is_zero", "floor", "ceiling", "round", "int", "fraction", "is_nan", "is_finite",
        "is_infinite"]
    | .range _ _ _ => ["start", "end", "is_inclusive", "is_exclusive", "is_empty"]
    | .function _ _ => ["name", "is_anonymous"]
    | _ => []
  if known.contains name then find? name [v] else none

end ScriptHost.Rhai.Library

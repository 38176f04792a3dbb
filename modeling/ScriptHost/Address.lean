import ScriptHost.Text.Blank

/-!
# Module addresses

An address is the path of a module, and after the first double colon possibly the name of
one of its types. Blanks around the address and around either part do not count.
-/

namespace ScriptHost

structure Address where
  module : String
  typeName : Option String
  deriving DecidableEq

namespace Address

inductive Error where
  | empty
  | missingModule (text : String)
  | emptyTypeName (text : String)
  deriving DecidableEq

def Error.message : Error → String
  | .empty => "binary address is empty"
  | .missingModule text => "binary address \x60" ++ text ++ "\x60 has no module path"
  | .emptyTypeName text => "binary address \x60" ++ text ++ "\x60 has an empty type name"

/-- The characters before and after the first double colon. -/
def splitColons : List Char → Option (List Char × List Char)
  | ':' :: ':' :: rest => some ([], rest)
  | c :: rest => (splitColons rest).map fun (before, after) => (c :: before, after)
  | [] => none

def parse (text : String) : Except Error Address :=
  let chars := Text.trimBlanks text.toList
  if chars = [] then .error .empty
  else
    match splitColons chars with
    | none => .ok ⟨String.ofList chars, none⟩
    | some (before, after) =>
      let module := Text.trimBlanks before
      let typeName := Text.trimBlanks after
      if typeName = [] then .error (.emptyTypeName (String.ofList chars))
      else if module = [] then .error (.missingModule (String.ofList chars))
      else .ok ⟨String.ofList module, some (String.ofList typeName)⟩

/-- The written form. -/
def render (a : Address) : String :=
  match a.typeName with
  | none => a.module
  | some t => a.module ++ "::" ++ t

end Address

end ScriptHost

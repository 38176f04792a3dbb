import ScriptHost.Log

/-!
# Log events

What the parts of the library tell the log. How an event is written is decided where the log
is.
-/

namespace ScriptHost.Log

/-- The value of a field: text that is quoted where fields are written in a row, text as it
is, or a number. -/
inductive FieldValue where
  | quoted (text : String)
  | plain (text : String)
  | number (n : Int)
  deriving DecidableEq

/-- The target names the part that the event is from. -/
structure Event where
  level : Level
  target : String
  message : String
  fields : List (String × FieldValue) := []
  deriving DecidableEq

end ScriptHost.Log

import ScriptHost.Text.Digit
import ScriptHost.Text.Invisible

/-!
# Quoted text

Diagnostics and log lines show a text between double quotes on one line: a quote or
backslash takes a backslash before it, the four common control characters have their
letter, and every other character that would leave no mark is written by its number.
-/

namespace ScriptHost.Text.Quoted

/-- One character inside the quotes. -/
def encodeChar (c : Char) : String :=
  if c = '"' then "\\\""
  else if c = '\\' then "\\\\"
  else if c = '\n' then "\\n"
  else if c = '\r' then "\\r"
  else if c = '\t' then "\\t"
  else if c.toNat = 0 then "\\0"
  else if c.toNat < 0x20 || c.toNat = 0x7f || isInvisible c then
    "\\u\x7b" ++ hexDigits c.toNat ++ "\x7d"
  else c.toString

/-- The text as it stands between the quotes. -/
def body (s : String) : String := String.join (s.toList.map encodeChar)

/-- The text in double quotes. -/
def quote (s : String) : String := "\"" ++ body s ++ "\""

end ScriptHost.Text.Quoted

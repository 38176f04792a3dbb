/-!
# Output

What a script writes, one entry for each write, on the normal or the error channel.
-/

namespace ScriptHost

inductive Channel where
  | out
  | err
  deriving DecidableEq, Repr, Inhabited

structure Entry where
  channel : Channel
  text : String
  deriving DecidableEq, Repr, Inhabited

/-- The writes to one sink, in order. -/
abbrev Entries := List Entry

namespace Entries

/-- All text on one channel. -/
def textOn (channel : Channel) (entries : Entries) : String :=
  String.join ((entries.filter fun e => e.channel = channel).map Entry.text)

end Entries

/-- What the user is shown besides the output: a title and a message. -/
structure Notice where
  title : String
  message : String
  deriving DecidableEq, Repr, Inhabited

end ScriptHost

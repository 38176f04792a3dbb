import ScriptHost.Effect
import ScriptHost.Log.Filter

/-!
# Transcripts

What a program leaves behind on its two output streams and in the log. The error stream holds
texts and the records of the log in their order.
-/

namespace ScriptHost.CommandLine

/-- What is written to the error stream. -/
inductive Piece where
  | text (s : String)
  | record (r : Log.Record)
  deriving DecidableEq

structure Transcript where
  out : String := ""
  err : List Piece := []
  deriving DecidableEq

namespace Transcript

instance : Append Transcript := ⟨fun a b => ⟨a.out ++ b.out, a.err ++ b.err⟩⟩

/-- A line on the output stream. -/
def line (s : String) : Transcript := { out := s ++ "\n" }

/-- A text on the error stream, which always ends a line. -/
def error (s : String) : Transcript :=
  { err := [.text (if s.endsWith "\n" then s else s ++ "\n")] }

/-- An event, if it is written. -/
def event (f : Log.Filter) (span : Option Log.Span) (e : Log.Event) : Transcript :=
  { err := (f.record? span e).toList.map .record }

/-- The event for a notice to the user. -/
def noticeEvent (n : Notice) : Log.Event where
  level := .warn
  target := "scriptrun_core::output"
  message := "script notification"
  fields := [("title", .quoted n.title), ("message", .quoted n.message)]

/-- What an effect of a run leaves behind. -/
def ofEffect (f : Log.Filter) (span : Log.Span) : Effect → Transcript
  | .write _ ⟨.out, text⟩ => { out := text }
  | .write _ ⟨.err, text⟩ => error text
  | .notify n => event f span (noticeEvent n)
  | .log e => event f span e

def ofEffects (f : Log.Filter) (span : Log.Span) (es : Effects) : Transcript :=
  es.foldl (fun t e => t ++ ofEffect f span e) {}

/-- The records of the log. -/
def records (t : Transcript) : List Log.Record :=
  t.err.filterMap fun p => match p with
    | .record r => some r
    | .text _ => none

/-- The text of the error stream. -/
def errText (format : Log.Format) (time : String) (t : Transcript) : String :=
  String.join (t.err.map fun p => match p with
    | .record r => r.line format time false
    | .text s => s)

/-- The text for the log file, where the runs around an event are listed. -/
def logText (format : Log.Format) (time : String) (t : Transcript) : String :=
  String.join (t.records.map fun r => r.line format time true)

end Transcript

end ScriptHost.CommandLine

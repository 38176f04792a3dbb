import ScriptHost.Text.Blank
import ScriptHost.Text.Digit

/-!
# Messages with a line

Compilers put the place of a mistake before its message, as a chunk name, a line number
and colons. A located message has the line taken out; a collector keeps every message
that it is given.
-/

namespace ScriptHost.Lua

structure Located where
  line : Option Nat
  message : List Char
  deriving DecidableEq

namespace Located

/-- What stands at a colon: a run of decimal digits, then a colon and a blank, then the rest
of the text. -/
def numberAt? : List Char → Option (List Char × List Char)
  | ':' :: rest =>
    let digits := rest.takeWhile Text.isDecimalDigit
    if digits = [] then none
    else
      match rest.dropWhile Text.isDecimalDigit with
      | ':' :: ' ' :: after => some (digits, after)
      | _ => none
  | _ => none

/-- The leftmost such place. -/
def firstNumber? : List Char → Option (List Char × List Char)
  | [] => none
  | c :: rest =>
    match numberAt? (c :: rest) with
    | some found => some found
    | none => firstNumber? rest

/-- The line of the digits, if they are ASCII and it fits in 32 bits. -/
def lineOf? (digits : List Char) : Option Nat :=
  if digits.all Char.isDigit then
    let n := Text.digitsValue digits
    if n < UInt32.size then some n else none
  else none

/-- Takes the line out of a message of one line. -/
def ofText (text : List Char) : Located :=
  if text.contains '\n' then ⟨none, text⟩
  else
    match firstNumber? text with
    | none => ⟨none, text⟩
    | some (digits, after) =>
      match lineOf? digits with
      | some line => ⟨some line, after⟩
      | none => ⟨none, text⟩

/-- The message, and its line after it. -/
def render (l : Located) : List Char :=
  match l.line with
  | some line => l.message ++ " (line ".toList ++ (toString line).toList ++ [')']
  | none => l.message

end Located

/-- The lines of a text: ended by line feeds, a carriage return before one not counted, no
empty line after the last. -/
def textLines (text : List Char) : List (List Char) :=
  let pieces := Text.splitOnChar '\n' text
  let last := pieces.getLastD []
  (pieces.dropLast.map fun l => if l.getLast? = some '\r' then l.dropLast else l) ++
    (if last = [] then [] else [last])

/-- One located message for each line of a syntax error that is not blank. -/
def Located.ofSyntaxError (text : String) : List Located :=
  ((textLines text.toList).filter fun l => !(l.all Text.isBlank)).map Located.ofText

/-- The messages on lines of their own. -/
def Located.renderAll (messages : List Located) : String :=
  String.ofList (Text.joinWith '\n' (messages.map Located.render))

/-- The messages of a compiler as they are collected, in order. -/
structure Collector where
  messages : List Located := []

namespace Collector

/-- Adds a message. -/
def push (c : Collector) (text : List Char) : Collector := ⟨c.messages ++ [.ofText text]⟩

/-- Adds the messages of a syntax error. -/
def collect (c : Collector) (error : String) : Collector :=
  ⟨c.messages ++ Located.ofSyntaxError error⟩

/-- All that was collected, each message on a line of its own. -/
def render (c : Collector) : String := Located.renderAll c.messages

end Collector

end ScriptHost.Lua

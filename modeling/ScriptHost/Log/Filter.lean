import ScriptHost.Log.Record

/-!
# Which records are written

A filter is a list of directives. A directive without a span sets how much is written of the
targets that begin with its own; of several the one with the longest target counts. One with a
span adds what is told from within the runs that it is for, whatever the target.
-/

namespace ScriptHost.Log

/-- The least important level that is written; none for nothing at all. -/
abbrev Verbosity := Option Level

namespace Verbosity

def allows (v : Verbosity) (l : Level) : Bool := v.any fun most => l.number ≤ most.number

/-- The verbosity of a name or number; nothing is called `off` or zero. -/
def ofName? (text : String) : Option Verbosity :=
  if Level.number? text = some 0 ∨ Text.lowerAscii text = "off" then some none
  else (Level.ofName? text).map some

/-- The verbosity that stands behind an equals sign; everything if nothing does. -/
def ofSetting? (text : String) : Option Verbosity :=
  if text = "" then some (some .trace) else ofName? text

end Verbosity

/-- `fields` are those that a span has to have, some with their value. -/
structure Directive where
  target : Option String := none
  span : Option String := none
  fields : List (String × Option String) := []
  verbosity : Verbosity := some .trace
  deriving DecidableEq

namespace Directive

/-- The setting at the end of a directive. -/
def withSetting? (d : Directive) : List Char → Option Directive
  | [] => some d
  | '=' :: rest =>
    (Verbosity.ofSetting? (String.ofList rest)).map fun verbosity => { d with verbosity }
  | _ => none

/-- A field that a span has to have. -/
def field? (text : List Char) : Option (String × Option String) :=
  match Text.splitOnChar '=' text with
  | [] | [[]] => none
  | [name] => some (String.ofList name, none)
  | name :: value :: _ => some (String.ofList name, some (String.ofList value))

/-- The part in brackets, and the setting behind it. -/
def withSpan? (d : Directive) (cs : List Char) : Option Directive :=
  let name := String.ofList (cs.takeWhile fun c => c ≠ ']' ∧ c ≠ '\x7b')
  match cs.dropWhile fun c => c ≠ ']' ∧ c ≠ '\x7b' with
  | ']' :: rest => withSetting? { d with span := some name } rest
  | '\x7b' :: rest =>
    match rest.dropWhile (· ≠ '\x7d') with
    | '\x7d' :: ']' :: setting => do
      let field ← field? (rest.takeWhile (· ≠ '\x7d'))
      withSetting? { d with span := if name = "" then none else some name, fields := [field] }
        setting
    | _ => none
  | _ => none

/-- A character that a target can begin with. -/
def beginsTarget (c : Char) : Bool :=
  c = '-' || c = ':' || c = '_' || c.isAlphanum || 0x7f < c.toNat

/-- The directive of a text: a level, a target, a span in brackets, or several of them. -/
def parse? (text : String) : Option Directive :=
  match text.toList with
  | [] => none
  | '[' :: rest => withSpan? {} rest
  | cs@(first :: _) =>
    if !beginsTarget first then none
    else
      let name := String.ofList (cs.takeWhile fun c => c ≠ '=' ∧ c ≠ '[')
      match cs.dropWhile fun c => c ≠ '=' ∧ c ≠ '[' with
      | [] =>
        match Verbosity.ofName? name with
        | some verbosity => some { verbosity }
        | none => some { target := some name }
      | '[' :: rest => withSpan? { target := some name } rest
      | setting => withSetting? { target := some name } setting

/-- Is a directive one for what is told from within runs? -/
def isDynamic (d : Directive) : Bool := d.span.isSome || !d.fields.isEmpty

/-- Is a directive for a target? -/
def coversTarget (d : Directive) (target : String) : Bool :=
  d.target.all fun t => target.startsWith t

/-- Is a directive for the span of a run? -/
def covers (d : Directive) (s : Span) (target : String) : Bool :=
  d.coversTarget target && d.span.all (· = Span.name) &&
    d.fields.all fun (name, _) => (s.fields.lookup name).isSome

/-- Has the span the values that a directive asks for? -/
def holdsFor (d : Directive) (s : Span) : Bool :=
  d.fields.all fun (name, value) => value.all fun v => s.fields.lookup name = some v

end Directive

abbrev Filter := List Directive

namespace Filter

/-- The filter of a text with commas between the directives. -/
def parse? (text : String) : Option Filter :=
  ((text.splitOn ",").filter (· ≠ "")).mapM Directive.parse?

def ofLevel (l : Level) : Filter := [{ verbosity := some l }]

/-- What is written of a target: the longest target counts, and of equal ones the last. -/
def verbosityOf (f : Filter) (target : String) : Verbosity :=
  let chosen := (f.filter fun d => !d.isDynamic && d.coversTarget target).foldl
    (fun best d => match best with
      | some (b : Directive) =>
        if (b.target.map String.length).getD 0 ≤ (d.target.map String.length).getD 0 ∧
            (b.target.isSome → d.target.isSome) then some d else best
      | none => some d) none
  chosen.bind Directive.verbosity

/-- The target of the spans of runs. -/
def spanTarget : String := "scriptrun_core::dispatcher"

/-- The directives that are for the span of a run. -/
def covering (f : Filter) (s : Span) : List Directive :=
  f.filter fun d => d.isDynamic && d.covers s spanTarget

/-- Is the span of a run shown? -/
def showsSpan (f : Filter) (s : Span) : Bool :=
  !(f.covering s).isEmpty || (f.verbosityOf spanTarget).allows .debug

/-- Is an event written that is told from within a run, or outside of any? -/
def allows (f : Filter) (span : Option Span) (e : Event) : Bool :=
  (f.verbosityOf e.target).allows e.level ||
    span.any fun s => (f.covering s).any fun d => d.holdsFor s && d.verbosity.allows e.level

/-- The record of an event, if it is written. -/
def record? (f : Filter) (span : Option Span) (e : Event) : Option Record :=
  if f.allows span e then some ⟨e, span.filter f.showsSpan⟩ else none

end Filter

end ScriptHost.Log

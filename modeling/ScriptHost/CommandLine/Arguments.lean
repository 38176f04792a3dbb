import ScriptHost.Engine
import ScriptHost.Log

/-!
# Arguments

What the words of a command line ask for. Words are read from left to right; the first mistake
is told. Some settings can stand before or behind the name of the command, and the ones behind
it count.
-/

namespace ScriptHost.CommandLine

/-- What the settings say. -/
structure Options where
  config : Option String := none
  logFormat : Option Log.Format := none
  logLevel : Option String := none
  engine : Option Engine := none
  interface : Interface := .command
  address : String := ""
  document : String := "default"
  debug : Bool := false
  keepGlobals : Bool := false
  refresh : Bool := false
  data : Option String := none

inductive Command where
  | engines
  | run (script : String)

structure Arguments where
  options : Options
  command : Command

/-- What is wrong with the words. A setting or place is named as the usage shows it. -/
inductive Mistake where
  | unexpected (word : String)
  | unknownCommand (word : String)
  | noCommand
  | noScript
  | noValue (setting : String)
  | needlessValue (value setting : String)
  | repeated (setting : String)
  | invalidValue (value setting reason : String)
  deriving DecidableEq

def Mistake.message : Mistake → String
  | unexpected word => "unexpected argument '" ++ word ++ "' found"
  | unknownCommand word => "unrecognized subcommand '" ++ word ++ "'"
  | noCommand => "'sr' requires a subcommand but one was not provided"
  | noScript => "the following required arguments were not provided:"
  | noValue setting => "a value is required for '" ++ setting ++ "' but none was supplied"
  | needlessValue value setting =>
    "unexpected value '" ++ value ++ "' for '" ++ setting ++ "' found; no more were expected"
  | repeated setting => "the argument '" ++ setting ++ "' cannot be used multiple times"
  | invalidValue value setting reason =>
    "invalid value '" ++ value ++ "' for '" ++ setting ++ "': " ++ reason

/-- Why there is nothing to do: a mistake, or the words ask for the version or for help; help
that is shown for want of words is no success. -/
inductive Refusal where
  | mistake (m : Mistake)
  | version
  | help (wanted : Bool)

/-! ## Settings -/

/-- What giving a setting does: it is switched on, or takes a value. -/
inductive Meaning where
  | switch (on : Options → Options)
  | value (shown : String) (set : Options → String → Except (Option String) Options)
  | ask (r : Refusal)

structure Setting where
  long : String
  short : Option Char := none
  meaning : Meaning

/-- The setting as the usage shows it. -/
def Setting.shown (s : Setting) : String :=
  match s.meaning with
  | .value shown _ => "--" ++ s.long ++ " <" ++ shown ++ ">"
  | _ => "--" ++ s.long

/-- A value that can be any text. -/
def anyText (set : Options → String → Options) :
    Options → String → Except (Option String) Options :=
  fun o text => .ok (set o text)

/-- A value that stands for something; the reason is told where it does not. -/
def named {α ε : Type} (parse : String → Except ε α) (message : ε → String)
    (set : Options → α → Options) : Options → String → Except (Option String) Options :=
  fun o text => ((parse text).mapError fun e => some (message e)).map (set o)

/-- The settings that every command knows. -/
def commonSettings : List Setting := [
  ⟨"config", none, .value "CONFIG" fun o text =>
    if text = "" then .error none else .ok { o with config := some text }⟩,
  ⟨"log-format", none, .value "LOG_FORMAT" (named Log.Format.parse Log.NameError.message
    fun o f => { o with logFormat := some f })⟩,
  ⟨"log-level", none, .value "LOG_LEVEL" (anyText fun o s => { o with logLevel := some s })⟩,
  ⟨"help", some 'h', .ask (.help true)⟩]

/-- The settings before the name of a command. -/
def outerSettings : List Setting := commonSettings ++ [⟨"version", some 'V', .ask .version⟩]

/-- The settings of a run. -/
def runSettings : List Setting := commonSettings ++ [
  ⟨"engine", some 'e', .value "ENGINE" (named Engine.parse NameError.message
    fun o e => { o with engine := some e })⟩,
  ⟨"interface", some 'i', .value "INTERFACE" (named Interface.parse NameError.message
    fun o i => { o with interface := i })⟩,
  ⟨"address", some 'a', .value "ADDRESS" (anyText fun o s => { o with address := s })⟩,
  ⟨"document", none, .value "DOCUMENT" (anyText fun o s => { o with document := s })⟩,
  ⟨"debug", none, .switch fun o => { o with debug := true }⟩,
  ⟨"keep-globals", none, .switch fun o => { o with keepGlobals := true }⟩,
  ⟨"refresh", none, .switch fun o => { o with refresh := true }⟩,
  ⟨"data", none, .value "DATA" (anyText fun o s => { o with data := some s })⟩]

/-! ## Reading -/

/-- What was given last and is not settled yet: a setting, with its value once that is there, or
the place of the script. -/
inductive Pending where
  | setting (s : Setting) (value : Option String)
  | script (path : String)

/-- How far the words of a command have been read: which settings were given, what is pending,
and whether only places can follow. -/
structure Reading where
  options : Options
  given : List String := []
  pending : Option Pending := none
  onlyPlaces : Bool := false
  script : Option String := none

namespace Reading

def refuse {α : Type} (m : Mistake) : Except Refusal α := .error (.mistake m)

/-- Notes that a setting was given, once at most. -/
def note (r : Reading) (s : Setting) : Except Refusal Reading :=
  if r.given.contains s.long then refuse (.repeated s.shown)
  else .ok { r with given := s.long :: r.given, pending := none }

/-- Takes a setting. -/
def take (r : Reading) (s : Setting) (value : Option String) : Except Refusal Reading := do
  match s.meaning, value with
  | .value _ _, none => refuse (.noValue s.shown)
  | .value _ set, some text =>
    let r ← r.note s
    match set r.options text with
    | .ok options => return { r with options }
    | .error none => refuse (.noValue s.shown)
    | .error (some reason) => refuse (.invalidValue text s.shown reason)
  | .switch on, _ =>
    let r ← r.note s
    return { r with options := on r.options }
  | .ask answer, _ => .error answer

/-- Takes what is pending. -/
def settle (r : Reading) : Except Refusal Reading :=
  match r.pending with
  | none => .ok r
  | some (.setting s value) => r.take s value
  | some (.script "") => refuse (.noValue "<SCRIPT>")
  | some (.script path) => .ok { r with script := some path, pending := none }

/-- Reads a setting, with the value that is attached to it. A value can also be the next
word. -/
def takeSetting (r : Reading) (s : Setting) (attached : Option String) :
    Except Refusal Reading := do
  match s.meaning, attached with
  | .value _ _, none => return { (← r.settle) with pending := some (.setting s none) }
  | .value _ _, some _ | _, none => (← r.settle).take s attached
  | _, some text => refuse (.needlessValue text s.shown)

/-- A word behind two hyphens: the name of a setting, with a value behind an equals sign. -/
def takeLong (settings : List Setting) (r : Reading) (cs : List Char) : Except Refusal Reading :=
  let name := String.ofList (cs.takeWhile (· ≠ '='))
  let attached := match cs.dropWhile (· ≠ '=') with
    | [] => none
    | _ :: value => some (String.ofList value)
  match settings.find? fun s => s.long = name with
  | some s => r.takeSetting s attached
  | none => refuse (.unexpected ("--" ++ name))

/-- Letters behind a hyphen. What follows the letter of a setting with a value is the value. -/
def takeShort (settings : List Setting) (r : Reading) : List Char → Except Refusal Reading
  | [] => .ok r
  | c :: rest =>
    match settings.find? fun s => s.short = some c with
    | none => refuse (.unexpected (String.ofList ['-', c]))
    | some s =>
      match s.meaning, rest with
      | .value _ _, [] => r.takeSetting s none
      | .value _ _, '=' :: value => r.takeSetting s (some (String.ofList value))
      | .value _ _, value => r.takeSetting s (some (String.ofList value))
      | _, rest => do takeShort settings (← r.takeSetting s none) rest

/-- Reads a word as a setting, or as the value that one waits for; none for a word that is
neither. -/
def takeWord? (settings : List Setting) (r : Reading) (word : String) :
    Option (Except Refusal Reading) :=
  if r.onlyPlaces then none
  else
    match word.toList with
    | ['-', '-'] => some (.ok { r with onlyPlaces := true })
    | '-' :: '-' :: cs => some (r.takeLong settings cs)
    | '-' :: c :: cs => some (takeShort settings r (c :: cs))
    | _ =>
      match r.pending with
      | some (.setting s none) => some (.ok { r with pending := some (.setting s (some word)) })
      | _ => none

/-- Is there no place left for a word? -/
def isFull (r : Reading) (hasPlace : Bool) : Bool :=
  !hasPlace || r.script.isSome || match r.pending with
    | some (.script _) => true
    | _ => false

/-- Reads the words behind the name of a command; only a run has a place, for its script. -/
def words (settings : List Setting) (hasPlace : Bool) (r : Reading) :
    List String → Except Refusal Reading
  | [] => r.settle
  | word :: rest => do
    match takeWord? settings r word with
    | some next => words settings hasPlace (← next) rest
    | none =>
      if r.isFull hasPlace then refuse (.unexpected word)
      else words settings hasPlace { (← r.settle) with pending := some (.script word) } rest

end Reading

open Reading

def commandNames : List String := ["run", "engines", "help"]

/-- Reads the words behind a word that should name a command. -/
def Arguments.ofCommand (options : Options) (name : String) (rest : List String) :
    Except Refusal Arguments := do
  match name with
  | "engines" =>
    let r ← words commonSettings false { options } rest
    return ⟨r.options, .engines⟩
  | "run" =>
    let r ← words runSettings true { options } rest
    match r.script with
    | some script => return ⟨r.options, .run script⟩
    | none => refuse .noScript
  | "help" =>
    match rest.find? fun word => !commandNames.contains word with
    | some word => refuse (.unknownCommand word)
    | none => .error (.help true)
  | _ => refuse (.unknownCommand name)

/-- Reads words up to the name of the command. What is pending there is settled after the words
behind it, whose settings count. -/
def Arguments.ofOuter (r : Reading) : List String → Except Refusal Arguments
  | [] => do
    let r ← r.settle
    if r.given.isEmpty then .error (.help false) else refuse .noCommand
  | word :: rest => do
    match takeWord? outerSettings r word with
    | some next => ofOuter (← next) rest
    | none =>
      if r.onlyPlaces ∧ commandNames.contains word then refuse (.unexpected word)
      else
        let options := match r.settle with
          | .ok settled => settled.options
          | .error _ => r.options
        let found ← ofCommand options word rest
        discard r.settle
        return found

/-- What the words ask for. -/
def Arguments.parse (words : List String) : Except Refusal Arguments :=
  ofOuter { options := {} } words

end ScriptHost.CommandLine

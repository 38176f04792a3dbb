import ScriptHost.Lua.Native

/-!
# The math library

Integers stay integers where the result is one. Random numbers come from a generator whose
four words of state are cells of the store.
-/

namespace ScriptHost.Lua.Maths

def result (v : Value) (s : Store) : Except Fault (Store × List Value) := .ok (s, [v])

/-- A function of one double. -/
def onFloat (f : Float → Float) : Plain := fun s args => do
  result (.float (f (← Args.float s args 1))) s

/-- A double that has been rounded, as an integer if it fits. -/
def rounded (x : Float) : Value :=
  match Double.toInt64? x with
  | some n => .int n
  | none => .float x

/-- Rounds to an integer by a rule for doubles. -/
def rounding (f : Float → Float) : Plain := fun s args => do
  match ← Args.number s args 1 with
  | .int n => result (.int n) s
  | .float x => result (rounded (f x)) s

def abs : Plain := fun s args => do
  match ← Args.number s args 1 with
  | .int n => result (.int (if n < 0 then -n else n)) s
  | .float x => result (.float x.abs) s

/-- The argument that no other goes before. -/
def extreme (replaces : Number → Number → Bool) : Plain := fun s args => do
  let first ← Args.number s args 1
  let found ← (List.range (args.length - 1)).foldlM (fun found i => do
    let n ← Args.number s args (i + 2)
    return if replaces n found then n else found) first
  result (.number found) s

def fmod : Plain := fun s args => do
  let a ← Args.number s args 1
  let b ← Args.number s args 2
  match a, b with
  | .int a, .int b =>
    if b = 0 then throw (.argument 2 "zero")
    else result (.int (.ofInt (Int.tmod a.toInt b.toInt))) s
  | a, b => result (.float (Double.truncatedRemainder a.toFloat b.toFloat)) s

/-- The number that an angle is taken over, one unless it is given. -/
def adjacent (s : Store) (args : Args) : Except Fault Float :=
  if Args.isNoneOrNil args 2 then .ok 1.0 else Args.float s args 2

def atan : Plain := fun s args => do
  let y ← Args.float s args 1
  let x ← adjacent s args
  result (.float (Float.atan2 y x)) s

def modf : Plain := fun s args => do
  match ← Args.number s args 1 with
  | .int n => return (s, [.int n, .float 0.0])
  | .float x =>
    let whole := if x < 0.0 then x.ceil else x.floor
    return (s, [.float whole, .float (if x == whole then 0.0 else x - whole)])

def log : Plain := fun s args => do
  let x ← Args.float s args 1
  if Args.isNoneOrNil args 2 then result (.float x.log) s
  else
    let base ← Args.float s args 2
    let y := if base == 2.0 then x.log2 else if base == 10.0 then x.log10 else x.log / base.log
    result (.float y) s

def tointeger : Plain := fun s args => do
  match (Args.value args 1).int? with
  | some n => result (.int n) s
  | none =>
    let _ ← Args.any args 1
    result .nil s

def type : Plain := fun s args => do
  match Args.value args 1 with
  | .number (.int _) => result (.string "integer") s
  | .number (.float _) => result (.string "float") s
  | _ =>
    let _ ← Args.any args 1
    result .nil s

def ult : Plain := fun s args => do
  let a ← Args.int s args 1
  let b ← Args.int s args 2
  result (.bool (a.toUInt64 < b.toUInt64)) s

/-! ## Random numbers -/

/-- The cells of the generator. -/
def randomCells : List Nat := [0, 1, 2, 3]

def rotated (x : UInt64) (n : UInt64) : UInt64 := (x <<< n) ||| (x >>> (64 - n))

def randomState (s : Store) : List UInt64 := randomCells.map fun c =>
  match s.cell c with
  | .number (.int n) => n.toUInt64
  | _ => 0

def setRandomState (s : Store) (words : List UInt64) : Store :=
  (randomCells.zip words).foldl (fun s (c, w) => s.setCell c (.int (.ofUInt64 w))) s

/-- The next random word and the state after it. -/
def nextRandom : List UInt64 → UInt64 × List UInt64
  | [a, b, c, d] =>
    let r := rotated (b * 5) 7 * 9
    let c1 := c ^^^ a
    let d1 := d ^^^ b
    (r, [a ^^^ d1, b ^^^ c1, c1 ^^^ (b <<< 17), rotated d1 45])
  | other => (0, other)

/-- Drops so many random words. -/
def discarded : Nat → List UInt64 → List UInt64
  | 0, words => words
  | n + 1, words => discarded n (nextRandom words).2

/-- The state that two words of seed begin with. -/
def seeded (a b : UInt64) : List UInt64 := discarded 16 [a, 0xff, b, 0]

/-- A random number up to a bound: the words are cut to the bits of the bound, and those above
it are thrown away. -/
def project (bound : UInt64) (mask : UInt64) : Nat → UInt64 → List UInt64 → UInt64 × List UInt64
  | 0, _, words => (0, words)
  | fuel + 1, r, words =>
    let r := r &&& mask
    if r ≤ bound then (r, words)
    else
      let (r, words) := nextRandom words
      project bound mask fuel r words

/-- A random integer between two, from a random word and the state after it. `position` is the
argument to blame where there is none. -/
def between (position : Nat) (r : UInt64) (words : List UInt64) (low high : Int64) (s : Store) :
    Except Fault (Store × List Value) :=
  if high < low then .error (.argument position "interval is empty")
  else
    let bound := high.toUInt64 - low.toUInt64
    let mask : UInt64 := (Nat.pow 2 (Nat.log2 bound.toNat + 1) - 1 : Nat).toUInt64
    let (k, words) := if bound = 0 then (0, words) else project bound mask 1000 r words
    .ok (setRandomState s words, [.int (low + .ofUInt64 k)])

def random : Plain := fun s args => do
  let (r, words) := nextRandom (randomState s)
  match args.length with
  | 0 =>
    return (setRandomState s words, [.float ((r >>> 11).toFloat * (0.5 / 4503599627370496.0))])
  | 1 =>
    let high ← Args.int s args 1
    if high = 0 then return (setRandomState s words, [.int (.ofUInt64 r)])
    else between 1 r words 1 high s
  | 2 =>
    let low ← Args.int s args 1
    let high ← Args.int s args 2
    between 2 r words low high s
  | _ => throw (.here "wrong number of arguments")

/-- A number as a word of seed. -/
def seedWord : Number → UInt64
  | .int n => n.toUInt64
  | .float x =>
    match Double.toInt64? x with
    | some n => n.toUInt64
    | none => x.toBits

def randomseed : Plain := fun s args => do
  if args.isEmpty then return (setRandomState s (seeded 0 0), [])
  else
    let first := seedWord (← Args.number s args 1)
    let second ← Args.intOr s args 2 0
    return (setRandomState s (seeded first second.toUInt64),
      [.int (.ofUInt64 first), .int second])

def pi : Float := 3.141592653589793

def run (f : MathFunction) : Store → Args → Native :=
  .ofPlain <| match f with
  | .abs => abs
  | .acos => onFloat Float.acos
  | .asin => onFloat Float.asin
  | .atan => atan
  | .ceil => rounding Float.ceil
  | .cos => onFloat Float.cos
  | .deg => onFloat (· * (180.0 / pi))
  | .exp => onFloat Float.exp
  | .floor => rounding Float.floor
  | .fmod => fmod
  | .log => log
  | .max => extreme fun n found => found.before false n
  | .min => extreme fun n found => n.before false found
  | .modf => modf
  | .rad => onFloat (· * (pi / 180.0))
  | .random => random
  | .randomseed => randomseed
  | .sin => onFloat Float.sin
  | .sqrt => onFloat Float.sqrt
  | .tan => onFloat Float.tan
  | .tointeger => tointeger
  | .type => type
  | .ult => ult

end ScriptHost.Lua.Maths

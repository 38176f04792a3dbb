import ScriptHost.Lua.Library.Format
import ScriptHost.Lua.Library.Pattern

/-!
# The string library

Places in a string count from one, or from its end where they are negative.
-/

namespace ScriptHost.Lua.Strings

/-- A first place: negative ones count from the end, and none is before the first. -/
def firstPlace (pos : Int64) (length : Nat) : Nat :=
  if 0 < pos then pos.toInt.toNat
  else if pos = 0 then 1
  else
    let back := (-pos.toInt).toNat
    if length < back then 1 else length - back + 1

/-- A last place: negative ones count from the end, and none is behind it. -/
def lastPlace (pos : Int64) (length : Nat) : Nat :=
  if pos.toInt > length then length
  else if 0 ≤ pos then pos.toInt.toNat
  else
    let back := (-pos.toInt).toNat
    if length < back then 0 else length - back + 1

/-- The piece from a place to a place. -/
def piece (bs : Bytes) (first last : Nat) : Bytes :=
  if last < first then [] else (bs.drop (first - 1)).take (last + 1 - first)

def captureValue : Bytes ⊕ Nat → Value
  | .inl bs => .string bs
  | .inr n => .ofNat n

def liftPattern {α : Type} (r : Pattern.Result α) : Except Fault α :=
  r.mapError Fault.here

/-- The greatest length of a string that is made by repetition. -/
def maxLength : Nat := Nat.pow 2 31

/-- What a replacement text stands for at a match. -/
def expand (m : Pattern.Match) (text : Array UInt8) : Nat → Bytes → Except Fault Bytes
  | 0, _ => .ok []
  | _, [] => .ok []
  | fuel + 1, 37 :: rest =>
    match rest with
    | 37 :: rest => do return 37 :: (← expand m text fuel rest)
    | 48 :: rest => do return m.piece text ++ (← expand m text fuel rest)
    | d :: rest =>
      if Bytes.isDigit d then do
        let values ← liftPattern (m.values text true)
        match values[d.toNat - 49]? with
        | some v =>
          let shown := match v with
            | .inl bs => bs
            | .inr n => Bytes.ofString (toString n)
          return shown ++ (← expand m text fuel rest)
        | none =>
          throw (.here ("invalid capture index %" ++ Bytes.ofString (toString (d.toNat - 48)) ++
            " in replacement string"))
      else throw (.here "invalid use of '%' in replacement string")
    | [] => throw (.here "invalid use of '%' in replacement string")
  | fuel + 1, b :: rest => do return b :: (← expand m text fuel rest)

/-- Goes on with a value in place of a match: nothing new for nil and false. -/
def putInPlace (text : Array UInt8) (m : Pattern.Match) (next : Store → Bytes → Native)
    (s : Store) (v : Value) : Native :=
  match v with
  | .nil | .bool false => next s (m.piece text)
  | v =>
    match v.text? with
    | some bs => next s bs
    | none => .fail s (.here ("invalid replacement value (a " ++ Bytes.ofString v.typeName ++ ")"))

/-- Goes on with what replaces a match. -/
def withReplacement (s : Store) (text : Array UInt8) (m : Pattern.Match) (by_ : Value)
    (next : Store → Bytes → Native) : Native :=
  match by_ with
  | .string _ | .number _ =>
    let replacement := (by_.text?).getD []
    .reading s (expand m text (replacement.length + 1) replacement) (next s)
  | .table _ =>
    .reading s (liftPattern (m.values text true)) fun values =>
      .withItem s by_ ((values.map captureValue).headD .nil) (putInPlace text m next)
  | f =>
    .reading s (liftPattern (m.values text true)) fun values =>
      .call s f (values.map captureValue) fun s results =>
        putInPlace text m next s (results.headD .nil)

/-- Replaces matches from a place on, `written` being what is before it in reverse. The end
of the last match is kept, so that an empty match cannot follow on it. -/
def replaceFrom (text : Array UInt8) (p : Bytes) (by_ : Value) (anchored : Bool) (most : Nat) :
    Nat → Store → Nat → Option Nat → Nat → Bytes → Native
  | 0, s, _, _, count, written => .done s [.string written.reverse, .ofNat count]
  | fuel + 1, s, at_, last, count, written =>
    let finish (s : Store) (at_ : Nat) (written : Bytes) (count : Nat) : Native :=
      .done s [.string (written.reverse ++ text.toList.drop at_), .ofNat count]
    if most ≤ count then finish s at_ written count
    else
      .reading s (liftPattern (Pattern.at? text p at_)) fun found =>
        match found.bind fun m => if some m.stop = last then none else some m with
        | some m =>
          withReplacement s text m by_ fun s bs =>
            let written := bs.reverse ++ written
            if anchored then finish s m.stop written (count + 1)
            else
              replaceFrom text p by_ anchored most fuel s m.stop (some m.stop) (count + 1) written
        | none =>
          match text[at_]? with
          | some b =>
            if anchored then finish s at_ written count
            else replaceFrom text p by_ anchored most fuel s (at_ + 1) last count (b :: written)
          | none => finish s at_ written count

/-- The next match of an iterator over matches; its cells hold where it goes on and the end
of the last match. -/
def nextMatch (text : Array UInt8) (p : Bytes) :
    Nat → Nat → Option Nat → Except Fault (Option Pattern.Match)
  | 0, _, _ => .ok none
  | places + 1, at_, last => do
    match ← liftPattern (Pattern.at? text p at_) with
    | some m =>
      if some m.stop = last then nextMatch text p places (at_ + 1) last else return some m
    | none => nextMatch text p places (at_ + 1) last

/-- One step of an iterator over matches. -/
def stepMatches (text pattern : Bytes) (position last : Nat) : Plain := fun s _ => do
  let place (v : Value) : Option Nat := v.int?.map fun n => n.toInt.toNat
  let at_ := (place (s.cell position)).getD 0
  let bytes := text.toArray
  match ← nextMatch bytes pattern (bytes.size + 1 - at_) at_ (place (s.cell last)) with
  | none => return (s.setCell position (.ofNat (bytes.size + 1)), [.nil])
  | some m =>
    let s := (s.setCell position (.ofNat m.stop)).setCell last (.ofNat m.stop)
    return (s, (← liftPattern (m.values bytes true)).map captureValue)

def find (findOnly : Bool) : Plain := fun s args => do
  let text ← Args.text s args 1
  let p ← Args.text s args 2
  let start := firstPlace (← Args.intOr s args 3 1) text.length - 1
  if text.length < start then return (s, [.nil])
  else if findOnly ∧ ((Args.value args 4).truthy ∨ Pattern.isPlain p) then
    match Pattern.findPlain? p start text with
    | some i => return (s, [.ofNat (i + 1), .ofNat (i + p.length)])
    | none => return (s, [.nil])
  else
    let bytes := text.toArray
    match ← liftPattern (Pattern.find bytes p start) with
    | none => return (s, [.nil])
    | some m =>
      let values := (← liftPattern (m.values bytes !findOnly)).map captureValue
      return (s, if findOnly then .ofNat (m.start + 1) :: .ofNat m.stop :: values else values)

def rep : Plain := fun s args => do
  let text ← Args.text s args 1
  let n := (← Args.int s args 2).toInt.toNat
  let sep ← Args.textOr s args 3 []
  if n = 0 then return (s, [.string []])
  else if maxLength ≤ (text.length + sep.length) * n then
    throw (.here "resulting string too large")
  else
    return (s, [.string ((List.replicate (n - 1) (text ++ sep)).flatten ++ text)])

def byte : Plain := fun s args => do
  let text ← Args.text s args 1
  let i ← Args.intOr s args 2 1
  let first := firstPlace i text.length
  let last := lastPlace (← Args.intOr s args 3 i) text.length
  return (s, (piece text first last).map fun b => .ofNat b.toNat)

def char : Plain := fun s args => do
  let bytes ← (List.range args.length).mapM fun i => do
    let n ← Args.int s args (i + 1)
    if 0 ≤ n ∧ n ≤ 255 then pure n.toUInt64.toUInt8
    else throw (.argument (i + 1) "value out of range")
  return (s, [.string bytes])

/-- A function of one text. -/
def onText (f : Bytes → Value) : Plain := fun s args => do
  return (s, [f (← Args.text s args 1)])

def sub : Plain := fun s args => do
  let text ← Args.text s args 1
  let first := firstPlace (← Args.int s args 2) text.length
  let last := lastPlace (← Args.intOr s args 3 (-1)) text.length
  return (s, [.string (piece text first last)])

def gmatch : Plain := fun s args => do
  let text ← Args.text s args 1
  let p ← Args.text s args 2
  let start := min (firstPlace (← Args.intOr s args 3 1) text.length - 1) (text.length + 1)
  let (s, position) := s.newCell (.ofNat start)
  let (s, last) := s.newCell .nil
  return (s, [.builtin (.nextMatch text p position last)])

/-- What replaces matches: a text, or what gives one. -/
def replacement (s : Store) (args : Args) : Except Fault Value :=
  match Args.value args 3 with
  | v@(.string _) | v@(.number _) | v@(.table _) | v@(.closure _) | v@(.builtin _) => .ok v
  | _ => Args.wrongType s args 3 "string/function/table"

def gsub (s : Store) (args : Args) : Native :=
  .reading s (Args.text s args 1) fun text =>
    .reading s (Args.text s args 2) fun p =>
      .reading s (replacement s args) fun by_ =>
        .reading s (Args.intOr s args 4 (.ofNat (text.length + 1))) fun most =>
          let (anchored, p) := Pattern.unanchored p
          replaceFrom text.toArray p by_ anchored most.toInt.toNat (2 * text.length + 2) s 0 none 0
            []

def format (s : Store) (args : Args) : Native :=
  .reading s (Args.text s args 1) fun form =>
    Format.write args (form.length + 1) s 2 form []

/-- What the other side of a string does in arithmetic. -/
def trialHandler (s : Store) (op : Arithmetic) : Value → Value
  | .string _ => .nil
  | v => s.event v (Bytes.ofString ("__" ++ op.name))

/-- What a string does in arithmetic: with a number or numeral on the other side it is the
number that it reads as; otherwise the other side may know more. -/
def trial (compute : Arithmetic → Number → Number → Except Fault Number) (op : Arithmetic)
    (s : Store) (args : Args) : Native :=
  let a := Args.value args 1
  let b := Args.value args 2
  match a.number?, b.number? with
  | some x, some y => .ofExcept s ((compute op x y).map fun n => [.number n])
  | _, _ =>
    match trialHandler s op b with
    | .nil =>
      .fail s (.here ("attempt to " ++ Bytes.ofString op.name ++ " a '" ++
        Bytes.ofString a.typeName ++ "' with a '" ++ Bytes.ofString b.typeName ++ "'"))
    | f => .call s f [a, b] fun s results => .done s [results.headD .nil]

/-- What the library does not do here. -/
def unavailable (what : String) : Plain := fun _ _ =>
  .error (.here (Bytes.ofString what ++ " is not available"))

def run (f : StringFunction) : Store → Args → Native :=
  match f with
  | .byte => .ofPlain byte
  | .char => .ofPlain char
  | .dump => .ofPlain (unavailable "string.dump")
  | .find => .ofPlain (find true)
  | .format => format
  | .gmatch => .ofPlain gmatch
  | .gsub => gsub
  | .len => .ofPlain (onText fun bs => .ofNat bs.length)
  | .lower => .ofPlain (onText fun bs => .string (bs.map Bytes.toLower))
  | .match_ => .ofPlain (find false)
  | .pack => .ofPlain (unavailable "string.pack")
  | .packsize => .ofPlain (unavailable "string.packsize")
  | .rep => .ofPlain rep
  | .reverse => .ofPlain (onText fun bs => .string bs.reverse)
  | .sub => .ofPlain sub
  | .unpack => .ofPlain (unavailable "string.unpack")
  | .upper => .ofPlain (onText fun bs => .string (bs.map Bytes.toUpper))

end ScriptHost.Lua.Strings

import ScriptHost.Lua.Library.Strings

/-!
# The utf8 library

Code points up to `2 ^ 31 - 1`, in sequences of up to six bytes where the caller is lax.
-/

namespace ScriptHost.Lua.CodePoints

def isContinuation (b : UInt8) : Bool := 0x80 ≤ b && b < 0xc0

/-- The code point at the beginning of the bytes, and the bytes after it. -/
def decode? (strict : Bool) (bs : Bytes) : Option (Nat × Bytes) :=
  match bs with
  | [] => none
  | b :: rest =>
    if b < 0x80 then some (b.toNat, rest)
    else
      let shape : Option (Nat × Nat × Nat) :=
        if b < 0xc0 then none
        else if b < 0xe0 then some (1, b.toNat - 0xc0, 0x80)
        else if b < 0xf0 then some (2, b.toNat - 0xe0, 0x800)
        else if b < 0xf8 then some (3, b.toNat - 0xf0, 0x10000)
        else if b < 0xfc then some (4, b.toNat - 0xf8, 0x200000)
        else if b < 0xfe then some (5, b.toNat - 0xfc, 0x4000000)
        else none
      match shape with
      | none => none
      | some (count, high, least) =>
        let more := rest.take count
        if more.length < count || !more.all isContinuation then none
        else
          let n := more.foldl (fun n c => 64 * n + (c.toNat - 0x80)) high
          if n < least then none
          else if strict && (0x10ffff < n || (0xd800 ≤ n && n ≤ 0xdfff)) then none
          else some (n, rest.drop count)

def char : Plain := fun s args => do
  let pieces ← (List.range args.length).mapM fun i => do
    let n ← Args.int s args (i + 1)
    if 0 ≤ n ∧ n.toInt ≤ 0x7fffffff then pure (Bytes.ofCodePoint n.toInt.toNat)
    else throw (.argument (i + 1) "value out of range")
  return (s, [.string pieces.flatten])

/-- A place in a string, which may be given from its end. -/
def place (pos : Int64) (length : Nat) : Int :=
  if 0 ≤ pos then pos.toInt else if (-pos.toInt) > length then 0 else length + pos.toInt + 1

/-- The code points from a place up to another. -/
def codesUpTo (strict : Bool) : Nat → Nat → Nat → Bytes → Option (List Nat)
  | 0, _, _, _ => some []
  | fuel + 1, at_, stop, bs =>
    if stop ≤ at_ then some []
    else
      match decode? strict bs with
      | none => none
      | some (n, rest) =>
        (codesUpTo strict fuel (at_ + (bs.length - rest.length)) stop rest).map (n :: ·)

def codepoint : Plain := fun s args => do
  let text ← Args.text s args 1
  let i := place (← Args.intOr s args 2 1) text.length
  let j := place (← Args.intOr s args 3 (.ofInt i)) text.length
  let strict := !(Args.value args 4).truthy
  if i < 1 then throw (.argument 2 "out of bounds")
  else if (text.length : Int) < j then throw (.argument 3 "out of bounds")
  else
    match codesUpTo strict (text.length + 1) (i.toNat - 1) j.toNat (text.drop (i.toNat - 1)) with
    | some ns => return (s, ns.map .ofNat)
    | none => throw (.here "invalid UTF-8 code")

/-- The number of code points from a place up to another, or the place that has none. -/
def count (strict : Bool) : Nat → Nat → Int → Bytes → Nat → Except Nat Nat
  | 0, _, _, _, n => .ok n
  | fuel + 1, at_, last, bs, n =>
    if last < at_ then .ok n
    else
      match decode? strict bs with
      | none => .error at_
      | some (_, rest) => count strict fuel (at_ + (bs.length - rest.length)) last rest (n + 1)

def len : Plain := fun s args => do
  let text ← Args.text s args 1
  let i := place (← Args.intOr s args 2 1) text.length
  let j := place (← Args.intOr s args 3 (-1)) text.length
  let strict := !(Args.value args 4).truthy
  if i < 1 ∨ (text.length : Int) + 1 < i then throw (.argument 2 "initial position out of bounds")
  else if (text.length : Int) < j then throw (.argument 3 "final position out of bounds")
  else
    match count strict (text.length + 1) (i.toNat - 1) (j - 1) (text.drop (i.toNat - 1)) 0 with
    | .ok n => return (s, [.ofNat n])
    | .error at_ => return (s, [.nil, .ofNat (at_ + 1)])

def offset : Plain := fun s args => do
  let text ← Args.text s args 1
  let n ← Args.int s args 2
  let i := place (← Args.intOr s args 3 (if 0 < n then 1 else .ofNat (text.length + 1)))
    text.length - 1
  if i < 0 ∨ (text.length : Int) < i then throw (.argument 3 "position out of bounds")
  else
    let i := i.toNat
    let bytes := text.toArray
    let isInside (k : Nat) : Bool := (bytes[k]?.map isContinuation).getD false
    let back (k : Nat) : Nat := ((List.range (k + 1)).reverse.find? fun j => !isInside j).getD 0
    let starts := (List.range (bytes.size + 1)).filter fun k => !isInside k
    if n = 0 then return (s, [.ofNat (back i + 1)])
    else if isInside i then throw (.here "initial position is a continuation byte")
    else
      let found : Option Nat :=
        if 0 < n then (starts.filter (i ≤ ·))[n.toInt.toNat - 1]?
        else (starts.filter (· < i)).reverse[n.toInt.natAbs - 1]?
      match found with
      | some k => return (s, [.ofNat (k + 1)])
      | none => return (s, [.nil])

/-- The code point after the one at a place, with its place. -/
def nextCode : Plain := fun s args => do
  let text ← Args.text s args 1
  let at_ := (← Args.int s args 2).toInt.toNat
  let rest := text.drop at_
  let skipped := (rest.takeWhile isContinuation).length
  let start := if at_ = 0 then 0 else at_ + skipped
  match text.drop start with
  | [] => return (s, [.nil])
  | bs =>
    match decode? true bs with
    | some (n, rest) =>
      if (rest.head?.map isContinuation).getD false then throw (.here "invalid UTF-8 code")
      else return (s, [.ofNat (start + 1), .ofNat n])
    | none => throw (.here "invalid UTF-8 code")

def codes : Plain := fun s args => do
  let text ← Args.text s args 1
  if (text.head?.map isContinuation).getD false then throw (.argument 1 "invalid UTF-8 code")
  else return (s, [.builtin .nextCode, .string text, .ofNat 0])

def run (f : Utf8Function) : Store → Args → Native :=
  .ofPlain <| match f with
  | .char => char
  | .codepoint => codepoint
  | .codes => codes
  | .len => len
  | .offset => offset

/-- A pattern that matches one code point. -/
def charPattern : Bytes := [91, 0, 45, 0x7f, 0xc2, 45, 0xfd, 93, 91, 0x80, 45, 0xbf, 93, 42]

end ScriptHost.Lua.CodePoints

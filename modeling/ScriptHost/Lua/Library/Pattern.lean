import ScriptHost.Lua.Bytes

/-!
# Patterns

Patterns describe sets of byte strings: classes of single bytes, repetition of them,
captures, balanced text and borders. A match is found by trying the ways of matching one
after the other.
-/

namespace ScriptHost.Lua.Pattern

/-- What a capture holds: nothing yet, a place, or a piece of the text by its length. -/
inductive Extent where
  | open_
  | position
  | closed (length : Nat)
  deriving DecidableEq

structure Capture where
  start : Nat
  extent : Extent

abbrev Result (α : Type) := Except Bytes α

/-- The byte classes that letters stand for. -/
def isInClass (letter b : UInt8) : Bool :=
  let found : Option Bool := match (Char.ofNat (Bytes.toLower letter).toNat) with
    | 'a' => some (Bytes.isLetter b)
    | 'c' => some (Bytes.isControl b)
    | 'd' => some (Bytes.isDigit b)
    | 'g' => some (33 ≤ b && b < 127)
    | 'l' => some (Bytes.isLower b)
    | 'p' => some (Bytes.isPunctuation b)
    | 's' => some (Bytes.isBlank b)
    | 'u' => some (Bytes.isUpper b)
    | 'w' => some (Bytes.isAlphanumeric b)
    | 'x' => some (Bytes.isHexDigit b)
    | _ => none
  match found with
  | some is => if Bytes.isUpper letter then !is else is
  | none => letter == b

/-- The bytes of a set up to its closing bracket, and what follows that. The first byte of a
set is never its end. -/
def setBody? : Nat → Bool → Bytes → Option (Bytes × Bytes)
  | 0, _, _ => none
  | _, _, [] => none
  | fuel + 1, first, b :: rest =>
    if b = 93 ∧ !first then some ([], rest)
    else if b = 37 then
      match rest with
      | [] => none
      | c :: rest => (setBody? fuel false rest).map fun (body, after) => (b :: c :: body, after)
    else (setBody? fuel false rest).map fun (body, after) => (b :: body, after)

/-- One item of a pattern that matches a single byte: its own bytes, and what follows. -/
def itemEnd (p : Bytes) : Result (Bytes × Bytes) :=
  match p with
  | 37 :: [] => .error "malformed pattern (ends with '%')"
  | 37 :: c :: rest => .ok ([37, c], rest)
  | 91 :: rest =>
    let (mark, rest) : Bytes × Bytes := match rest with
      | 94 :: rest => ([94], rest)
      | _ => ([], rest)
    match setBody? (rest.length + 1) true rest with
    | some (body, after) => .ok (91 :: mark ++ body, after)
    | none => .error "malformed pattern (missing ']')"
  | c :: rest => .ok ([c], rest)
  | [] => .ok ([], [])

/-- Is a byte in the body of a set? -/
def isInSet (b : UInt8) : Bytes → Bool
  | [] => false
  | 37 :: c :: rest => isInClass c b || isInSet b rest
  | low :: 45 :: high :: rest => (low ≤ b && b ≤ high) || isInSet b rest
  | c :: rest => c == b || isInSet b rest

/-- Does a single byte match an item? -/
def matchesItem (b : UInt8) : Bytes → Bool
  | [46] => true
  | [37, c] => isInClass c b
  | 91 :: 94 :: body => !isInSet b body
  | 91 :: body => isInSet b body
  | [c] => c == b
  | _ => false

/-- The end of balanced text that begins after its opening byte; `depth` of it are open. -/
def balancedEnd? (opening closing : UInt8) : Nat → Nat → Bytes → Option Nat
  | _, _, [] => none
  | depth, at_, b :: rest =>
    if b = closing then
      if depth = 1 then some (at_ + 1) else balancedEnd? opening closing (depth - 1) (at_ + 1) rest
    else balancedEnd? opening closing (if b = opening then depth + 1 else depth) (at_ + 1) rest

/-- The captures with the last open one closed. -/
def closeLast (length : Nat → Nat) (captures : List Capture) : Option (List Capture) :=
  match captures.reverse.findIdx? fun c => c.extent = .open_ with
  | none => none
  | some k =>
    let i := captures.length - 1 - k
    some (captures.mapIdx fun j c =>
      if j = i then { c with extent := .closed (length c.start) } else c)

/-- Do the bytes begin with these? -/
def beginsWith : Bytes → Bytes → Bool
  | [], _ => true
  | _ :: _, [] => false
  | p :: ps, b :: bs => p == b && beginsWith ps bs

/-- The number of captures that a pattern can have. -/
def maxCaptures : Nat := 32

/-- Matches a pattern at a place of the text; the end of the match and its captures. -/
def matchAt (text : Array UInt8) :
    Nat → Nat → Bytes → List Capture → Result (Option (Nat × List Capture))
  | 0, _, _, _ => .error "pattern too complex"
  | fuel + 1, at_, p, captures =>
    let single (item after : Bytes) : Result (Option (Nat × List Capture)) :=
      let fits (i : Nat) : Bool := match text[i]? with
        | some b => matchesItem b item
        | none => false
      match after with
      | 63 :: rest =>
        if fits at_ then
          match matchAt text fuel (at_ + 1) rest captures with
          | .ok none => matchAt text fuel at_ rest captures
          | found => found
        else matchAt text fuel at_ rest captures
      | 42 :: rest | 43 :: rest =>
        let most := ((List.range (text.size - at_)).find? fun i => !fits (at_ + i)).getD
          (text.size - at_)
        let least := if after.head? = some 43 then 1 else 0
        let tries := ((List.range (most + 1 - least)).map (· + least)).reverse
        tries.foldl (fun found n =>
          match found with
          | .ok none => matchAt text fuel (at_ + n) rest captures
          | found => found) (.ok none)
      | 45 :: rest =>
        match matchAt text fuel at_ rest captures with
        | .ok none => if fits at_ then matchAt text fuel (at_ + 1) p captures else .ok none
        | found => found
      | rest => if fits at_ then matchAt text fuel (at_ + 1) rest captures else .ok none
    match p with
    | [] => .ok (some (at_, captures))
    | 40 :: 41 :: rest =>
      if captures.length ≥ maxCaptures then .error "too many captures"
      else matchAt text fuel at_ rest (captures ++ [⟨at_, .position⟩])
    | 40 :: rest =>
      if captures.length ≥ maxCaptures then .error "too many captures"
      else matchAt text fuel at_ rest (captures ++ [⟨at_, .open_⟩])
    | 41 :: rest =>
      match closeLast (fun start => at_ - start) captures with
      | some captures => matchAt text fuel at_ rest captures
      | none => .error "invalid pattern capture"
    | [36] => .ok (if at_ = text.size then some (at_, captures) else none)
    | 37 :: 98 :: rest =>
      match rest with
      | opening :: closing :: rest =>
        match text[at_]? with
        | none => .ok none
        | some b =>
          if b ≠ opening then .ok none
          else
            match balancedEnd? opening closing 1 (at_ + 1) (text.toList.drop (at_ + 1)) with
            | some end_ => matchAt text fuel end_ rest captures
            | none => .ok none
      | _ => .error "malformed pattern (missing arguments to '%b')"
    | 37 :: 102 :: rest =>
      match rest with
      | 91 :: _ =>
        match itemEnd rest with
        | .error e => .error e
        | .ok (item, after) =>
          let before := if at_ = 0 then 0 else text.getD (at_ - 1) 0
          let here := text.getD at_ 0
          if !matchesItem before item && matchesItem here item then
            matchAt text fuel at_ after captures
          else .ok none
      | _ => .error "missing '[' after '%f' in pattern"
    | 37 :: d :: rest =>
      if Bytes.isDigit d then
        match (if d = 48 then none else captures[d.toNat - 49]?) with
        | some ⟨start, .closed length⟩ =>
          let piece := (text.toList.drop start).take length
          if beginsWith piece (text.toList.drop at_) then
            matchAt text fuel (at_ + length) rest captures
          else .ok none
        | _ =>
          .error ("invalid capture index %" ++ Bytes.ofString (toString (d.toNat - 48)) ++
            " in pattern")
      else single [37, d] rest
    | p =>
      match itemEnd p with
      | .error e => .error e
      | .ok (item, after) => single item after

/-- A match in a text. -/
structure Match where
  start : Nat
  stop : Nat
  captures : List Capture

/-- A pattern without the mark that ties it to the beginning. -/
def unanchored : Bytes → Bool × Bytes
  | 94 :: rest => (true, rest)
  | p => (false, p)

/-- Matches a pattern at one place. -/
def at? (text : Array UInt8) (p : Bytes) (start : Nat) : Result (Option Match) :=
  match matchAt text (2 * text.size + 2 * p.length + 10) start p [] with
  | .error e => .error e
  | .ok none => .ok none
  | .ok (some (stop, captures)) => .ok (some ⟨start, stop, captures⟩)

/-- The first match from a place on, trying so many places. -/
def search (text : Array UInt8) (p : Bytes) : Nat → Nat → Result (Option Match)
  | 0, _ => .ok none
  | places + 1, start =>
    match at? text p start with
    | .ok none => search text p places (start + 1)
    | found => found

/-- The first match from a place on; an anchored pattern matches there or nowhere. -/
def find (text : Array UInt8) (p : Bytes) (start : Nat) : Result (Option Match) :=
  match unanchored p with
  | (true, p) => at? text p start
  | (false, p) => search text p (text.size + 1 - start) start

/-- What a capture captured: a piece of the text or, for a place, its number from one. -/
def captured (text : Array UInt8) (c : Capture) : Result (Bytes ⊕ Nat) :=
  match c.extent with
  | .open_ => .error "unfinished capture"
  | .position => .ok (.inr (c.start + 1))
  | .closed length => .ok (.inl ((text.toList.drop c.start).take length))

/-- The piece of text that a match covers. -/
def Match.piece (m : Match) (text : Array UInt8) : Bytes :=
  (text.toList.drop m.start).take (m.stop - m.start)

/-- All captures of a match; the whole match if there are none. -/
def Match.values (m : Match) (text : Array UInt8) (wholeIfNone : Bool) :
    Result (List (Bytes ⊕ Nat)) :=
  if m.captures.isEmpty ∧ wholeIfNone then .ok [.inl (m.piece text)]
  else m.captures.mapM (captured text)

/-- Does the pattern have no byte with a meaning of its own? -/
def isPlain (p : Bytes) : Bool :=
  p.all fun b => !(Bytes.ofString "^$*+?.([%-").contains b

/-- The first place of a piece in a text from a place on. -/
def findPlain? (piece : Bytes) (start : Nat) (text : Bytes) : Option Nat :=
  go (text.length + 1) start (text.drop start)
where
  go : Nat → Nat → Bytes → Option Nat
    | 0, _, _ => none
    | fuel + 1, at_, rest =>
      if beginsWith piece rest then some at_
      else
        match rest with
        | [] => none
        | _ :: rest => go fuel (at_ + 1) rest

end ScriptHost.Lua.Pattern

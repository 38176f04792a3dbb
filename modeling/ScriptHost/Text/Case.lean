/-!
# Upper and lower case

The case of the letters of the Latin, Greek and Cyrillic blocks; every other character is as it
is in either case. The sharp s has two letters in upper case.
-/

namespace ScriptHost.Text

/-- Blocks of lower-case letters, first and last, with what their upper-case letters are
below them. -/
def caseBlocks : List (Nat × Nat × Nat) :=
  [(0x61, 0x7a, 32), (0xe0, 0xf6, 32), (0xf8, 0xfe, 32), (0x3b1, 0x3c1, 32), (0x3c3, 0x3cb, 32),
    (0x430, 0x44f, 32), (0x450, 0x45f, 80)]

/-- Blocks where upper-case and lower-case letters alternate, first and last, with what the
upper-case letters leave when divided by two. -/
def casePairs : List (Nat × Nat × Nat) :=
  [(0x100, 0x12f, 0), (0x132, 0x137, 0), (0x139, 0x148, 1), (0x14a, 0x177, 0), (0x179, 0x17e, 1),
    (0x460, 0x481, 0), (0x48a, 0x4bf, 0), (0x4d0, 0x52f, 0)]

/-- The upper-case letter of a character. -/
def upperChar (c : Char) : Char :=
  let n := c.toNat
  match caseBlocks.find? fun (first, last, _) => first ≤ n && n ≤ last with
  | some (_, _, distance) => .ofNat (n - distance)
  | none =>
    match casePairs.find? fun (first, last, _) => first ≤ n && n ≤ last with
    | some (_, _, parity) => if n % 2 = parity then c else .ofNat (n - 1)
    | none => if n = 0x3c2 then .ofNat 0x3a3 else if n = 0xff then .ofNat 0x178 else c

/-- The lower-case letter of a character. -/
def lowerChar (c : Char) : Char :=
  let n := c.toNat
  match caseBlocks.find? fun (first, last, distance) =>
      first - distance ≤ n && n ≤ last - distance with
  | some (_, _, distance) => .ofNat (n + distance)
  | none =>
    match casePairs.find? fun (first, last, _) => first ≤ n && n ≤ last with
    | some (_, _, parity) => if n % 2 = parity then .ofNat (n + 1) else c
    | none => if n = 0x178 then .ofNat 0xff else c

/-- A text in upper case. -/
def upper (s : String) : String :=
  String.ofList (s.toList.flatMap fun c => if c = 'ß' then ['S', 'S'] else [upperChar c])

/-- A text in lower case. -/
def lower (s : String) : String := s.map lowerChar

end ScriptHost.Text

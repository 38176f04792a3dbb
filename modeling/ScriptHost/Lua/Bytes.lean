/-!
# Byte strings

The strings of scripts hold any bytes. As text they are read as UTF-8; where that fails,
each longest beginning of a character that cannot go on is shown as one replacement
character.
-/

namespace ScriptHost.Lua

abbrev Bytes := List UInt8

namespace Bytes

def ofString (s : String) : Bytes := s.toList.flatMap String.utf8EncodeChar

instance : Coe String Bytes := ⟨ofString⟩

/-- A character whose first bytes have been read: their value, how many bytes are still to
come, and the bounds of the next one. -/
structure Pending where
  value : Nat
  left : Nat
  low : UInt8
  high : UInt8

/-- What a first byte begins. -/
def pending? (b : UInt8) : Option Pending :=
  if b < 0xc2 then none
  else if b < 0xe0 then some ⟨b.toNat - 0xc0, 1, 0x80, 0xbf⟩
  else if b = 0xe0 then some ⟨0, 2, 0xa0, 0xbf⟩
  else if b = 0xed then some ⟨0xd, 2, 0x80, 0x9f⟩
  else if b < 0xf0 then some ⟨b.toNat - 0xe0, 2, 0x80, 0xbf⟩
  else if b = 0xf0 then some ⟨0, 3, 0x90, 0xbf⟩
  else if b < 0xf4 then some ⟨b.toNat - 0xf0, 3, 0x80, 0xbf⟩
  else if b = 0xf4 then some ⟨4, 3, 0x80, 0x8f⟩
  else none

/-- The characters of the bytes; none where there is no character. -/
def decodeFrom : Option Pending → Bytes → List (Option Char)
  | none, [] => []
  | some _, [] => [none]
  | some p, b :: rest =>
    if p.low ≤ b ∧ b ≤ p.high then
      let value := 64 * p.value + (b.toNat - 0x80)
      if p.left = 1 then some (.ofNat value) :: decodeFrom none rest
      else decodeFrom (some ⟨value, p.left - 1, 0x80, 0xbf⟩) rest
    else if b < 0x80 then none :: some (.ofNat b.toNat) :: decodeFrom none rest
    else
      match pending? b with
      | some q => none :: decodeFrom (some q) rest
      | none => none :: none :: decodeFrom none rest
  | none, b :: rest =>
    if b < 0x80 then some (.ofNat b.toNat) :: decodeFrom none rest
    else
      match pending? b with
      | some q => decodeFrom (some q) rest
      | none => none :: decodeFrom none rest

def decode (bs : Bytes) : List (Option Char) := decodeFrom none bs

/-- The text, if the bytes are UTF-8. -/
def text? (bs : Bytes) : Option String := (decode bs).mapM id |>.map String.ofList

/-- The text as far as the bytes are UTF-8. -/
def toText (bs : Bytes) : String := String.ofList ((decode bs).map (·.getD '\ufffd'))

/-- The order by bytes. -/
def before : Bytes → Bytes → Bool
  | _, [] => false
  | [], _ :: _ => true
  | a :: as, b :: bs => a < b || (a == b && before as bs)

def isLetter (b : UInt8) : Bool := (65 ≤ b && b ≤ 90) || (97 ≤ b && b ≤ 122)
def isDigit (b : UInt8) : Bool := 48 ≤ b && b ≤ 57
def isAlphanumeric (b : UInt8) : Bool := isLetter b || isDigit b
def isUpper (b : UInt8) : Bool := 65 ≤ b && b ≤ 90
def isLower (b : UInt8) : Bool := 97 ≤ b && b ≤ 122
def isControl (b : UInt8) : Bool := b < 32 || b == 127
def isPrintable (b : UInt8) : Bool := 32 ≤ b && b < 127
def isPunctuation (b : UInt8) : Bool := 33 ≤ b && b < 127 && !isAlphanumeric b

/-- Blanks are the space and the five control characters from tab to carriage return. -/
def isBlank (b : UInt8) : Bool := b == 32 || (9 ≤ b && b ≤ 13)

/-- The value of a hexadecimal digit. -/
def hexValue? (b : UInt8) : Option Nat :=
  if isDigit b then some (b.toNat - 48)
  else if 97 ≤ b ∧ b ≤ 102 then some (b.toNat - 87)
  else if 65 ≤ b ∧ b ≤ 70 then some (b.toNat - 55)
  else none

def isHexDigit (b : UInt8) : Bool := (hexValue? b).isSome

def toLower (b : UInt8) : UInt8 := if isUpper b then b + 32 else b
def toUpper (b : UInt8) : UInt8 := if isLower b then b - 32 else b

/-- A name: letters, digits and underscores, no digit first. -/
def isNameByte (b : UInt8) : Bool := isAlphanumeric b || b == 95

/-- The bytes of a code point below `2 ^ 31`, the surrogates among them. -/
def ofCodePoint (n : Nat) : Bytes :=
  if n < 0x80 then [n.toUInt8]
  else if n < 0x800 then [(0xc0 + n / 64).toUInt8, continuation n]
  else if n < 0x10000 then [(0xe0 + n / 4096).toUInt8, continuation (n / 64), continuation n]
  else if n < 0x200000 then
    [(0xf0 + n / 262144).toUInt8, continuation (n / 4096), continuation (n / 64), continuation n]
  else if n < 0x4000000 then
    [(0xf8 + n / 16777216).toUInt8, continuation (n / 262144), continuation (n / 4096),
      continuation (n / 64), continuation n]
  else
    [(0xfc + n / 1073741824).toUInt8, continuation (n / 16777216), continuation (n / 262144),
      continuation (n / 4096), continuation (n / 64), continuation n]
where
  continuation (n : Nat) : UInt8 := (0x80 + n % 64).toUInt8

end Bytes

end ScriptHost.Lua

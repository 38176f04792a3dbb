import ScriptHost.Decimal.Rounded
import ScriptHost.Lua.Native

/-!
# Formatted text

A format is text with directives: flags, a least width, a precision, and a letter for the
kind of the value.
-/

namespace ScriptHost.Lua.Format

structure Directive where
  left : Bool
  plus : Bool
  blank : Bool
  alternate : Bool
  zeros : Bool
  width : Nat
  precision : Option Nat
  letter : UInt8
  /-- The directive as it was written, with the mark before it. -/
  written : Bytes

/-- Reads a directive after its mark. -/
def directive? (bs : Bytes) : Option (Directive × Bytes) :=
  let flags := bs.takeWhile fun b => (Bytes.ofString "-+ #0").contains b
  let rest := bs.drop flags.length
  let width := (rest.take 2).takeWhile Bytes.isDigit
  let rest := rest.drop width.length
  let (precision, rest) : Option Bytes × Bytes := match rest with
    | 46 :: rest =>
      let digits := (rest.take 2).takeWhile Bytes.isDigit
      (some digits, rest.drop digits.length)
    | _ => (none, rest)
  match rest with
  | [] => none
  | letter :: rest =>
    let has (b : UInt8) := flags.contains b
    some ({ left := has 45, plus := has 43, blank := has 32, alternate := has 35, zeros := has 48
            width := Number.digitsValue 10 width
            precision := precision.map (Number.digitsValue 10)
            letter
            written := 37 :: bs.take (bs.length - rest.length) }, rest)

namespace Directive

/-- Are there no more flags than these, and a precision only where it is allowed? -/
def allows (d : Directive) (flags : String) (withPrecision : Bool) : Bool :=
  let has (c : Char) := flags.toList.contains c
  (!d.left || has '-') && (!d.plus || has '+') && (!d.blank || has ' ') &&
    (!d.alternate || has '#') && (!d.zeros || has '0') && (withPrecision || d.precision.isNone)

/-- Fills the text up to the width. Zeros go between the sign or base mark and the digits. -/
def pad (d : Directive) (mark body : List Char) (zeros : Bool) : List Char :=
  let missing := d.width - (mark.length + body.length)
  if d.left then mark ++ body ++ List.replicate missing ' '
  else if zeros then mark ++ List.replicate missing '0' ++ body
  else List.replicate missing ' ' ++ mark ++ body

def padBytes (d : Directive) (body : Bytes) : Bytes :=
  let blanks := List.replicate (d.width - body.length) (32 : UInt8)
  if d.left then body ++ blanks else blanks ++ body

def sign (d : Directive) (negative : Bool) : List Char :=
  if negative then ['-'] else if d.plus then ['+'] else if d.blank then [' '] else []

/-- Digits with the least number of them that the precision asks for; zero without precision
has no digits at all. -/
def digits (d : Directive) (base n : Nat) : List Char :=
  if n = 0 ∧ d.precision = some 0 then []
  else
    let ds := Nat.toDigits base n
    List.replicate (d.precision.getD 1 - ds.length) '0' ++ ds

def integer (d : Directive) (n : Int64) : List Char :=
  d.pad (d.sign (n < 0)) (d.digits 10 n.toInt.natAbs) (d.zeros && d.precision.isNone)

def unsigned (d : Directive) (n : Int64) : List Char :=
  let value := n.toUInt64.toNat
  let upper (cs : List Char) := if d.letter = 88 then cs.map Char.toUpper else cs
  let zeros := d.zeros && d.precision.isNone
  if d.letter = 117 then d.pad [] (d.digits 10 value) zeros
  else if d.letter = 111 then
    let ds := d.digits 8 value
    d.pad [] (if d.alternate && ds.head? ≠ some '0' then '0' :: ds else ds) zeros
  else
    let mark := if d.alternate && value ≠ 0 then ['0', 'x'] else []
    d.pad (upper mark) (upper (d.digits 16 value)) zeros

/-- A double in the hexadecimal form, with the digits that it needs or as many as asked. -/
def hexadecimal (d : Directive) (p : Decimal.Parts) : List Char :=
  -- The mantissa with its leading one at bit 52.
  let shift := if p.mantissa = 0 then 0 else 52 - Nat.log2 p.mantissa
  let mantissa := p.mantissa * Nat.pow 2 shift
  let exponent : Int := if p.mantissa = 0 then 0 else p.exponent - shift + 52
  let (mantissa, places) := match d.precision with
    | none => (mantissa, 13)
    | some places =>
      if 13 ≤ places then (mantissa * Nat.pow 16 (places - 13), places)
      else ((Decimal.Ratio.mk mantissa (Nat.pow 16 (13 - places))).round, places)
  let whole := mantissa / Nat.pow 16 places
  let ds := Nat.toDigits 16 (mantissa % Nat.pow 16 places)
  let fraction := List.replicate (places - ds.length) '0' ++ ds
  let fraction := if d.precision.isNone then Decimal.dropTrailingZeros fraction
    else if places = 0 then [] else fraction
  Nat.toDigits 16 whole ++ (if fraction.isEmpty ∧ !d.alternate then [] else '.' :: fraction) ++
    'p' :: (if exponent < 0 then '-' else '+') :: Nat.toDigits 10 exponent.natAbs

def float (d : Directive) (x : Float) : List Char :=
  let upper (cs : List Char) := if Bytes.isUpper d.letter then cs.map Char.toUpper else cs
  match Decimal.content x with
  | .notANumber => d.pad (d.sign true) (upper "nan".toList) false
  | .infinite negative => d.pad (d.sign negative) (upper "inf".toList) false
  | .finite p =>
    let value := Decimal.Ratio.ofScaled p.mantissa p.exponent
    let places := d.precision.getD 6
    let withPoint (cs : List Char) := if d.alternate ∧ places = 0 then cs ++ ['.'] else cs
    let (mark, body) := match Char.ofNat (Bytes.toLower d.letter).toNat with
      | 'f' => ([], withPoint (value.fixed places))
      | 'e' => ([], value.scientific places)
      | 'g' => ([], value.general places d.alternate)
      | _ => (['0', 'x'], d.hexadecimal p)
    d.pad (d.sign p.negative ++ upper mark) (upper body) d.zeros

end Directive

/-- A double as a constant of the language: in hexadecimal, so that nothing is lost. -/
def floatConstant (x : Float) : Bytes :=
  if x == 1.0 / 0.0 then "1e9999"
  else if x == -1.0 / 0.0 then "-1e9999"
  else if x != x then "(0/0)"
  else
    let d : Directive := ⟨false, false, false, false, false, 0, none, 97, []⟩
    Bytes.ofString (String.ofList (d.float x))

/-- A string between quotes that reads back as the same string. -/
def quoted (bs : Bytes) : Bytes := 34 :: body bs ++ [34]
where
  body : Bytes → Bytes
    | [] => []
    | b :: rest =>
      if b = 34 ∨ b = 92 ∨ b = 10 then 92 :: b :: body rest
      else if Bytes.isControl b then
        let followed := (rest.head?.map Bytes.isDigit).getD false
        let ds := Nat.toDigits 10 b.toNat
        let ds := if followed then List.replicate (3 - ds.length) '0' ++ ds else ds
        92 :: Bytes.ofString (String.ofList ds) ++ body rest
      else b :: body rest

/-- A value as a constant of the language. -/
def constant? : Value → Option Bytes
  | .string s => some (quoted s)
  | .number (.int n) =>
    if n = Int64.minValue then some "0x8000000000000000"
    else some (Number.int n).toText
  | .number (.float x) => some (floatConstant x)
  | .nil => some "nil"
  | .bool b => some (if b then "true" else "false")
  | _ => none

/-- The error of a directive that does not exist or has flags that it cannot have. -/
def invalid (written : Bytes) : Fault :=
  .here ("invalid conversion '" ++ written ++ "' to 'format'")

/-- Writes one value, or asks for its text: the text is then written by the continuation. -/
def writeOne (s : Store) (args : Args) (i : Nat) (d : Directive)
    (next : Store → Bytes → Native) : Native :=
  let chars (cs : List Char) : Bytes := Bytes.ofString (String.ofList cs)
  let checked (flags : String) (withPrecision : Bool) (k : Unit → Native) : Native :=
    if d.allows flags withPrecision then k () else .fail s (invalid d.written)
  if Args.isNone args i then .fail s (.argument i "no value")
  else
    match Char.ofNat d.letter.toNat with
    | 'c' => checked "-" false fun _ =>
      .reading s (Args.int s args i) fun n => next s (d.padBytes [n.toUInt64.toUInt8])
    | 'd' | 'i' => checked "-+0 " true fun _ =>
      .reading s (Args.int s args i) fun n => next s (chars (d.integer n))
    | 'u' => checked "-0" true fun _ =>
      .reading s (Args.int s args i) fun n => next s (chars (d.unsigned n))
    | 'o' | 'x' | 'X' => checked "-#0" true fun _ =>
      .reading s (Args.int s args i) fun n => next s (chars (d.unsigned n))
    | 'a' | 'A' | 'f' | 'F' | 'e' | 'E' | 'g' | 'G' => checked "-+#0 " true fun _ =>
      .reading s (Args.float s args i) fun x => next s (chars (d.float x))
    | 'p' => checked "-" false fun _ => next s (d.padBytes "(null)")
    | 'q' =>
      if d.written.length ≠ 2 then .fail s (.here "specifier '%q' cannot have modifiers")
      else
        match constant? (Args.value args i) with
        | some bs => next s bs
        | none => .fail s (.argument i "value has no literal form")
    | 's' => checked "-" true fun _ =>
      .withText s (Args.value args i) fun s text =>
        if d.written.length = 2 then next s text
        else if text.contains 0 then .fail s (.argument i "string contains zeros")
        else
          next s (d.padBytes (match d.precision with
            | some n => text.take n
            | none => text))
    | _ => .fail s (invalid d.written)

/-- Writes what is left of a format after `written`, the next value being argument `i`. -/
def write (args : Args) : Nat → Store → Nat → Bytes → Bytes → Native
  | 0, s, _, _, written => .done s [.string written.reverse]
  | fuel + 1, s, i, format, written =>
    match format with
    | [] => .done s [.string written.reverse]
    | 37 :: 37 :: rest => write args fuel s i rest (37 :: written)
    | 37 :: rest =>
      match directive? rest with
      | none => .fail s (invalid (37 :: rest))
      | some (d, rest) =>
        writeOne s args i d fun s bs => write args fuel s (i + 1) rest (bs.reverse ++ written)
    | b :: rest => write args fuel s i rest (b :: written)

end ScriptHost.Lua.Format

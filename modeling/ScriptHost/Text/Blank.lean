/-!
# Blank characters

The blanks are the characters with the White_Space property. Trimming and splitting
into words go by this class everywhere; none of it is ASCII only.
-/

namespace ScriptHost.Text

/-- Does `c` have the White_Space property? -/
def isBlank (c : Char) : Bool :=
  let n := c.toNat
  (9 ≤ n && n ≤ 13) || n == 0x20 || n == 0x85 || n == 0xa0 || n == 0x1680 ||
    (0x2000 ≤ n && n ≤ 0x200a) || n == 0x2028 || n == 0x2029 || n == 0x202f ||
    n == 0x205f || n == 0x3000

theorem isBlank_of_isWhitespace {c : Char} (h : c.isWhitespace = true) : isBlank c = true := by
  simp only [Char.isWhitespace, Bool.or_eq_true, decide_eq_true_eq] at h
  rcases h with ((rfl | rfl) | rfl) | rfl <;> decide

/-- The characters from the first one that is not blank. -/
def dropBlanks (cs : List Char) : List Char := cs.dropWhile isBlank

/-- The characters up to the last one that is not blank. -/
def dropTrailingBlanks (cs : List Char) : List Char := (cs.reverse.dropWhile isBlank).reverse

/-- The characters without the blanks at either end. -/
def trimBlanks (cs : List Char) : List Char := dropTrailingBlanks (dropBlanks cs)

/-- The text without the blanks at either end. -/
def trim (s : String) : String := String.ofList (trimBlanks s.toList)

/-- The maximal runs of characters that are not blank, in order. -/
def words (cs : List Char) : List (List Char) :=
  go [] cs
where
  go (word : List Char) : List Char → List (List Char)
    | [] => flush word []
    | c :: rest => if isBlank c then flush word (go [] rest) else go (c :: word) rest
  flush (word : List Char) (after : List (List Char)) : List (List Char) :=
    if word.isEmpty then after else word.reverse :: after

/-- ASCII letters in lower case, every other character as it is. -/
def lowerAscii (s : String) : String := s.map Char.toLower

/-- The pieces of `cs` between occurrences of `sep`; always at least one. -/
def splitOnChar (sep : Char) : List Char → List (List Char)
  | [] => [[]]
  | c :: rest =>
    if c = sep then [] :: splitOnChar sep rest
    else
      match splitOnChar sep rest with
      | [] => [[c]]
      | piece :: pieces => (c :: piece) :: pieces

/-- The pieces written after each other with `sep` between them. -/
def joinWith (sep : Char) : List (List Char) → List Char
  | [] => []
  | [piece] => piece
  | piece :: pieces => piece ++ sep :: joinWith sep pieces

end ScriptHost.Text

/-!
# Line ends

Text arrives with line ends of three kinds: line feed, carriage return, and the pair
of both. `normalize` turns all of them into line feeds by two replacements over the
whole text, first the pairs, then the carriage returns that are left.
-/

namespace ScriptHost.Text.Newline

/-- Each pair of carriage return and line feed becomes one line feed. -/
def joinPairs : List Char → List Char
  | '\r' :: '\n' :: rest => '\n' :: joinPairs rest
  | c :: rest => c :: joinPairs rest
  | [] => []

/-- Each carriage return becomes a line feed. -/
def replaceReturns (cs : List Char) : List Char :=
  cs.map fun c => if c = '\r' then '\n' else c

/-- Every line end becomes a line feed. -/
def normalizeChars (cs : List Char) : List Char := replaceReturns (joinPairs cs)

/-- Every line end of the text becomes a line feed. -/
def normalize (s : String) : String := String.ofList (normalizeChars s.toList)

/-- One pass from left to right over the line ends: a pair or a lone carriage return is
one line feed, every other character stays. -/
def scan : List Char → List Char
  | '\r' :: '\n' :: rest => '\n' :: scan rest
  | '\r' :: rest => '\n' :: scan rest
  | c :: rest => c :: scan rest
  | [] => []

end ScriptHost.Text.Newline

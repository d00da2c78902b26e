import LoxScan.Token.Kind

/-!
# Cutting a source into segments

Every source is a row of segments: white space, comments, lexemes, a
string left open at the end, and stray characters that start nothing.
`Segment.first` cuts the first one off, and it needs no more than the
text ahead: no state passes from one segment to the next.

The order of the tests is the grammar's order of priority, and each kind
of segment is as long as it can be. Of the text after a segment at most
two characters are looked at: a digit after the point decides whether a
number has a fraction.
-/

namespace LoxScan

/-- The white space of Lox. -/
def isSpace (c : Char) : Bool := c == ' ' || c == '\r' || c == '\t' || c == '\n'

/-- Digits are the ASCII ones. -/
def isDigit (c : Char) : Bool := '0' ≤ c && c ≤ '9'

/-- What a word starts with: an ASCII letter or an underscore. -/
def isWordStart (c : Char) : Bool :=
  ('a' ≤ c && c ≤ 'z') || ('A' ≤ c && c ≤ 'Z') || c == '_'

def isWordPart (c : Char) : Bool := isWordStart c || isDigit c

/-- One piece of a source. -/
inductive Segment where
  /-- A white space character. -/
  | space (c : Char)
  /-- Two slashes and the rest of their line. -/
  | comment (text : List Char)
  /-- The text of a token. -/
  | lexeme (kind : Kind) (text : List Char)
  /-- A quote and all that follows, without a second quote. -/
  | openString (text : List Char)
  /-- A character that starts no other segment. -/
  | stray (c : Char)
  deriving DecidableEq, Repr

namespace Segment

def text : Segment → List Char
  | space c => [c]
  | comment text => text
  | lexeme _ text => text
  | openString text => text
  | stray c => [c]

/-- A string from its opening quote on. -/
def string (cs : List Char) : Segment :=
  let body := cs.takeWhile (· ≠ '"')
  match cs.dropWhile (· ≠ '"') with
  | [] => openString ('"' :: body)
  | _ :: _ => lexeme .string ('"' :: (body ++ ['"']))

/-- The text of a number: digits, and a fraction if a digit follows the
point. -/
def numeral (c : Char) (cs : List Char) : List Char :=
  let whole := c :: cs.takeWhile isDigit
  match cs.dropWhile isDigit with
  | '.' :: d :: rest =>
    if isDigit d then whole ++ '.' :: d :: rest.takeWhile isDigit else whole
  | _ => whole

/-- An operator or punctuation mark, the longer of two that fit; any
other character is stray. -/
def symbol (c : Char) (cs : List Char) : Segment :=
  let long := if cs.head? = some '=' then Symbol.withEqual? c else none
  match long, Symbol.single? c with
  | some s, _ => lexeme (.symbol s) [c, '=']
  | none, some s => lexeme (.symbol s) [c]
  | none, none => stray c

/-- The first segment of the text `c :: cs`. -/
def first (c : Char) (cs : List Char) : Segment :=
  if isSpace c then space c
  else if c = '/' ∧ cs.head? = some '/' then comment (c :: cs.takeWhile (· ≠ '\n'))
  else if c = '"' then string cs
  else if isDigit c then lexeme .number (numeral c cs)
  else if isWordStart c then
    let word := c :: cs.takeWhile isWordPart
    lexeme (Kind.ofWord (String.ofList word)) word
  else symbol c cs

theorem text_string_ne_nil (cs : List Char) : (string cs).text ≠ [] := by
  simp only [string]
  split <;> simp [text]

theorem numeral_ne_nil (c : Char) (cs : List Char) : numeral c cs ≠ [] := by
  unfold numeral
  split
  · split <;> simp
  · simp

theorem text_symbol_ne_nil (c : Char) (cs : List Char) : (symbol c cs).text ≠ [] := by
  unfold symbol
  simp only
  split <;> simp [text]

theorem text_first_ne_nil (c : Char) (cs : List Char) : (first c cs).text ≠ [] := by
  unfold first
  split
  · simp [text]
  split
  · simp [text]
  split
  · exact text_string_ne_nil cs
  split
  · exact numeral_ne_nil c cs
  split
  · simp [text]
  · exact text_symbol_ne_nil c cs

theorem length_text_first_pos (c : Char) (cs : List Char) : 0 < (first c cs).text.length :=
  List.length_pos_iff.2 (text_first_ne_nil c cs)

end Segment

end LoxScan

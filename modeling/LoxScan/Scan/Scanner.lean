import LoxScan.Diagnostic.Basic
import LoxScan.Scan.Segment
import LoxScan.Source.Cursor
import LoxScan.Token.Basic

/-!
# Pulling tokens out of a source

A scanner walks its cursor over a source one segment at a time. A *pull*
skips what is no token and stops behind the first lexeme; what went
wrong on the way comes back with the token, as diagnostics in source
order. At the end of the source every pull gives the end mark.

The same scanner can be read lazily or at once. `next` is an iterator
that gives the end mark once, `take` asks it a number of times, and
`scanTokens` asks until it is exhausted: since a token has at least one
character, one question for each remaining character and one more for
the end mark always suffice.
-/

namespace LoxScan

/-- A source being read. -/
structure Scanner where
  cursor : Cursor
  /-- Where the current lexeme starts. -/
  start : Position
  /-- Whether the iterator has given the end mark. -/
  finished : Bool
  deriving Repr

/-- A token, what was reported before it was found, and the scanner
behind it. -/
structure Pull where
  token : Token
  reported : List Diagnostic
  scanner : Scanner

/-- Several pulls in a row. -/
structure Pulls where
  tokens : List Token
  reported : List Diagnostic
  scanner : Scanner

namespace Scanner

def ofSource (source : String) : Scanner :=
  { cursor := Cursor.ofSource source, start := Position.origin, finished := false }

/-- The span from the start of the current lexeme to the cursor. -/
def span (s : Scanner) : Span :=
  { start := s.start.offset
    stop := s.cursor.position.offset
    line := s.start.line
    column := s.start.column }

def diagnostic (s : Scanner) (code : Code) (message : String) : Diagnostic :=
  (Diagnostic.error message s.span).withCode code

/-- The scanner with a text of the source as its current lexeme. -/
def enter (s : Scanner) (text : List Char) : Scanner :=
  { s with start := s.cursor.position, cursor := s.cursor.advanceBy text.length }

theorem length_rest_enter_lt {s : Scanner} {text : List Char} (hs : s.cursor.rest ≠ [])
    (ht : 0 < text.length) : (s.enter text).cursor.rest.length < s.cursor.rest.length := by
  have := List.length_pos_iff.2 hs
  simp [enter]
  omega

def strayMessage (c : Char) : String :=
  String.ofList ("Unexpected character: '".toList ++ c :: "'.".toList)

def openStringMessage : String := "Unterminated string."

/-- The next token. Segments that make no token are passed over, those
that are errors with a diagnostic. -/
def nextToken (s : Scanner) : Pull :=
  match hs : s.cursor.rest with
  | [] =>
    { token := Token.eof s.cursor.position.line
      reported := []
      scanner := { s with start := s.cursor.position } }
  | c :: cs =>
    let segment := Segment.first c cs
    let after := s.enter segment.text
    have : after.cursor.rest.length < s.cursor.rest.length :=
      length_rest_enter_lt (by simp [hs]) (Segment.length_text_first_pos c cs)
    match segment with
    | .space _ | .comment _ => after.nextToken
    | .lexeme kind text =>
      { token := Token.ofLexeme kind text after.start.line
        reported := []
        scanner := after }
    | .openString _ =>
      let pull := after.nextToken
      { pull with
        reported := after.diagnostic .unterminatedString openStringMessage :: pull.reported }
    | .stray c =>
      let pull := after.nextToken
      { pull with
        reported := after.diagnostic .unexpectedChar (strayMessage c) :: pull.reported }
termination_by s.cursor.rest.length

/-- The next token of the iterator: the end mark is given once. -/
def next (s : Scanner) : Option Pull :=
  if s.finished then none
  else
    let pull := s.nextToken
    some { pull with
      scanner := { pull.scanner with finished := pull.token.isEof } }

/-- At most `n` tokens of the iterator. -/
def take : Nat → Scanner → Pulls
  | 0, s => { tokens := [], reported := [], scanner := s }
  | n + 1, s =>
    match s.next with
    | none => { tokens := [], reported := [], scanner := s }
    | some pull =>
      let rest := take n pull.scanner
      { tokens := pull.token :: rest.tokens
        reported := pull.reported ++ rest.reported
        scanner := rest.scanner }

def scanTokens (s : Scanner) : Pulls := s.take (s.cursor.rest.length + 1)

end Scanner

structure Scan where
  tokens : List Token
  diagnostics : List Diagnostic
  /-- The line at the end of the source. -/
  lastLine : UInt32
  deriving Repr

/-- The tokens of a source, the end mark last, and its errors. -/
def scan (source : String) : Scan :=
  let pulls := (Scanner.ofSource source).scanTokens
  { tokens := pulls.tokens
    diagnostics := pulls.reported
    lastLine := pulls.scanner.cursor.position.line }

end LoxScan

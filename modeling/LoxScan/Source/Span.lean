import LoxScan.Text.Lines
import LoxScan.Text.Offset

/-!
# Regions of a source

A span says where a lexeme or a diagnostic stands: a half-open range of
byte offsets for cutting, and the line and column of its first character
for reading. Spans are data and need not fit the source they are used
with, so looking one up can fail, and `SourceError` says how.
-/

namespace LoxScan

structure Span where
  /-- First byte offset. -/
  start : Nat
  /-- Byte offset after the last one. -/
  stop : Nat
  line : UInt32
  column : UInt32
  deriving DecidableEq, Repr, Inhabited

namespace Span

/-- The span of what has no place in the source. -/
def dummy : Span := { start := 0, stop := 0, line := 0, column := 0 }

/-- The number of bytes covered, none if the range is reversed. -/
def length (s : Span) : Nat := s.stop - s.start

def isEmpty (s : Span) : Bool := s.start == s.stop

/-- Line zero marks a span without a place. -/
def isDummy (s : Span) : Bool := s.line == 0

end Span

inductive SourceError where
  /-- There is no such line. -/
  | invalidLineNumber (line lineCount : Nat)
  /-- The range is reversed, too long, or cuts a character. -/
  | spanOutOfBounds (sourceLength start stop : Nat)
  deriving DecidableEq, Repr

def SourceError.message : SourceError → String
  | .invalidLineNumber line lineCount =>
    s!"Invalid line number: {line} (source has {lineCount} lines)"
  | .spanOutOfBounds sourceLength start stop =>
    s!"Span out of bounds: source has {sourceLength} bytes, span is {start}..{stop}"

/-- The text of a line, counted from one, without the carriage returns
that belong to its end: the one before a line feed and one more. -/
def lineText (source : List Char) (line : UInt32) : Except SourceError (List Char) :=
  let ls := Text.lines source
  let missing := SourceError.invalidLineNumber line.toNat ls.length
  if line = 0 then .error missing
  else match ls[line.toNat - 1]? with
    | some text => .ok (Text.stripReturn text)
    | none => .error missing

end LoxScan

import LoxScan.Diagnostic.Basic
import LoxScan.Text.Offset

/-!
# Source lines with an underlined range

A snippet is drawn as two lines behind gutters of one width: the source
line, and carets under a range of its columns. Columns are cut off at the
first one, and a range that is empty or reversed gets one caret. Tabs and
carriage returns before the range are repeated under themselves, so the
carets stay in their columns however a terminal expands them.

Columns need not be on the line, and a text can only hold so many bytes.
So drawing is partial: `format` gives nothing where filling up the padding,
repeating the caret or putting both lines together would exceed
`Text.capacity`.
-/

namespace LoxScan

/-- A source line and a range of its columns, counted from one; the last
column is excluded. -/
structure Snippet where
  line : String
  lineNumber : Nat
  startColumn : Nat
  endColumn : Nat
  label : Option String
  deriving DecidableEq, Repr

namespace Snippet

/-- The width of the line number: that of its digits, three at least. -/
def gutterWidth (s : Snippet) : Nat := max 3 (toString s.lineNumber).length

def padLeft (width : Nat) (text : List Char) : List Char :=
  List.replicate (width - text.length) ' ' ++ text

def gutter (s : Snippet) (text : List Char) : List Char :=
  padLeft s.gutterWidth text ++ " | ".toList

def numberedLine (s : Snippet) : List Char :=
  s.gutter (toString s.lineNumber).toList ++ s.line.toList

/-- What stands under a character before the range. -/
def under (c : Char) : Char := if c = '\t' ∨ c = '\r' then c else ' '

/-- What stands under the columns before the range that are on the line. -/
def marksOnLine (s : Snippet) : List Char := (s.line.toList.take (s.startColumn - 1)).map under

/-- How many columns before the range are behind the line. There is no such
number if more columns were marked than there are. -/
def missing? (s : Snippet) : Option Nat :=
  let width := s.startColumn - 1
  let marked := s.marksOnLine.length
  if marked ≤ width then some (width - marked) else none

/-- The characters before the first caret, spaces past the end of the
line. -/
def padding? (s : Snippet) : Option (List Char) := do
  let missing ← s.missing?
  return s.marksOnLine ++ (← Text.replicate? missing ' ')

def caretCount (s : Snippet) : Nat := max 1 (s.endColumn - s.startColumn)

def labelText (s : Snippet) : List Char :=
  match s.label with
  | some text => ' ' :: text.toList
  | none => []

def format (s : Snippet) : Option String := do
  let padding ← s.padding?
  let carets ← Text.replicate? s.caretCount '^'
  let text := String.ofList
    (s.numberedLine ++ '\n' :: (s.gutter [] ++ padding ++ carets ++ s.labelText))
  if text.utf8ByteSize ≤ Text.capacity then return text else none

end Snippet

end LoxScan

import LoxScan.Source.Position
import LoxScan.Text.Offset

/-!
# Reading a source character by character

A cursor holds a source, the part of it not read yet, and the position in
between. Reading past the end gives NUL and moves nothing, so look-ahead
needs no bounds; whether the end is reached is asked with `isAtEnd`,
because a source may hold a NUL of its own.

`peek` answers from the bytes while they are ASCII, where byte and
character offsets coincide, and counts characters otherwise.
-/

namespace LoxScan

/-- A place in a source together with what lies ahead. -/
structure Cursor where
  source : String
  /-- The characters not read yet. -/
  rest : List Char
  position : Position
  deriving DecidableEq, Repr, Inhabited

namespace Cursor

def ofSource (source : String) : Cursor :=
  { source, rest := source.toList, position := Position.origin }

/-- The character ahead by `n`, if every one of the next `n + 1` bytes is
ASCII. -/
def peekAscii? (c : Cursor) (n : Nat) : Option Char :=
  let bytes := c.source.toUTF8
  let first := c.position.offset
  if h : first + n < bytes.size then
    if (List.range (n + 1)).all (fun i => bytes.get! (first + i) < 0x80) then
      some (Char.ofNat bytes[first + n].toNat)
    else none
  else none

/-- The character ahead by `n`, NUL past the end. -/
def peek (c : Cursor) (n : Nat) : Char :=
  match c.peekAscii? n with
  | some ch => ch
  | none => (c.rest[n]?).getD '\x00'

/-- The next character, NUL at the end. -/
def current (c : Cursor) : Char := c.peek 0

def isAtEnd (c : Cursor) : Bool := c.rest.isEmpty

/-- Past the next character; at the end, where it is. -/
def advance (c : Cursor) : Cursor :=
  match c.rest with
  | [] => c
  | ch :: rest => { c with rest, position := c.position.next ch }

/-- Past the next `n` characters, or to the end. -/
def advanceBy : Nat → Cursor → Cursor
  | 0, c => c
  | n + 1, c => if c.isAtEnd then c else advanceBy n c.advance

/-- Past the next character if it is the expected one, and whether it
was. -/
def accept (c : Cursor) (expected : Char) : Bool × Cursor :=
  match c.rest with
  | [] => (false, c)
  | ch :: _ => if ch = expected then (true, c.advance) else (false, c)

def remaining (c : Cursor) : String := String.ofList c.rest

/-- The source between two byte offsets, if both are boundaries. -/
def slice? (c : Cursor) (start stop : Nat) : Option String :=
  (Text.slice? c.source.toList start stop).map String.ofList

/-- The source from a byte offset to the cursor. -/
def sliceFrom? (c : Cursor) (start : Nat) : Option String := c.slice? start c.position.offset

@[simp] theorem rest_advance (c : Cursor) : c.advance.rest = c.rest.drop 1 := by
  unfold advance
  cases h : c.rest <;> simp [h]

@[simp] theorem rest_advanceBy (n : Nat) (c : Cursor) :
    (advanceBy n c).rest = c.rest.drop n := by
  induction n generalizing c with
  | zero => simp [advanceBy]
  | succ n ih =>
    unfold advanceBy
    split
    · simp_all [isAtEnd]
    · simp [ih]

end Cursor

end LoxScan

/-!
# Places in a source

A position is the state of a reader that has passed some leading text: how
many bytes that was, and the line and column of what comes next. Lines
and columns count from one, columns in characters, and both are 32-bit
words.

`Position.passing` is the only way positions move, one character at a time,
so what holds of `next` holds along every text.
-/

namespace LoxScan

/-- The place between what has been read and what comes next. -/
structure Position where
  /-- Bytes read so far. -/
  offset : Nat
  /-- Line of the next character. -/
  line : UInt32
  /-- Column of the next character. -/
  column : UInt32
  deriving DecidableEq, Repr, Inhabited

namespace Position

def origin : Position := { offset := 0, line := 1, column := 1 }

/-- The place after one more character. A line feed starts a new line. -/
def next (p : Position) (c : Char) : Position :=
  if c = '\n' then
    { offset := p.offset + c.utf8Size, line := p.line + 1, column := 1 }
  else
    { offset := p.offset + c.utf8Size, line := p.line, column := p.column + 1 }

def passing (p : Position) (cs : List Char) : Position := cs.foldl next p

@[simp] theorem passing_nil (p : Position) : p.passing [] = p := rfl

@[simp] theorem passing_cons (p : Position) (c : Char) (cs : List Char) :
    p.passing (c :: cs) = (p.next c).passing cs := rfl

end Position

end LoxScan

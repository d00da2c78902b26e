import LoxScan.Text.BreakClass

/-!
# User-perceived characters

A text is cut into extended grapheme clusters: a base with the marks on
it, a Hangul syllable, a pair of regional indicators, pictographs held
together by joiners, a conjunct of consonants. Whether a character
continues the cluster before it depends on that cluster alone, and of it
only on what `Tail` remembers.
-/

namespace LoxScan.Text

/-- How far a cluster is on the way to be continued by a pictograph. -/
inductive PictographState where
  | none
  /-- A pictograph and marks on it. -/
  | begun
  /-- The same and a joiner. -/
  | joined
  deriving DecidableEq, Repr

/-- How far a cluster is on the way to be continued by a consonant. -/
inductive ConjunctState where
  | none
  /-- A consonant and marks on it. -/
  | begun
  /-- The same with a linker among the marks. -/
  | linked
  deriving DecidableEq, Repr

/-- The end of a cluster, as far as it decides what may follow. -/
structure Tail where
  last : BreakClass
  pictograph : PictographState
  conjunct : ConjunctState
  /-- Whether it ends in an unpaired regional indicator. -/
  unpaired : Bool
  deriving DecidableEq, Repr

namespace Tail

/-- Whether a Hangul jamo or syllable goes on with another. -/
def joinsHangul : BreakClass → BreakClass → Bool
  | .hangulL, b => b == .hangulL || b == .hangulV || b == .hangulLV || b == .hangulLVT
  | .hangulLV, b | .hangulV, b => b == .hangulV || b == .hangulT
  | .hangulLVT, b | .hangulT, b => b == .hangulT
  | _, _ => false

def isControl (b : BreakClass) : Bool :=
  b == .control || b == .carriageReturn || b == .lineFeed

/-- Whether a character continues a cluster with this end. -/
def joins (t : Tail) (c : Char) : Bool :=
  let b := breakClass c
  if t.last = .carriageReturn ∧ b = .lineFeed then true
  else if isControl t.last || isControl b then false
  else
    joinsHangul t.last b
      || b == .extend || b == .joiner || b == .spacingMark
      || t.last == .leading
      || (t.conjunct == .linked && conjunctRole c == .consonant)
      || (t.pictograph == .joined && isPictograph c)
      || (t.unpaired && b == .regional)

/-- The end of a cluster of one character. -/
def start (c : Char) : Tail :=
  let b := breakClass c
  { last := b
    pictograph := if isPictograph c then .begun else .none
    conjunct := if conjunctRole c = .consonant then .begun else .none
    unpaired := b == .regional }

def extend (t : Tail) (c : Char) : Tail :=
  let b := breakClass c
  let fresh := start c
  { last := b
    pictograph :=
      if t.pictograph = .begun ∧ b = .extend then .begun
      else if t.pictograph = .begun ∧ b = .joiner then .joined
      else fresh.pictograph
    conjunct :=
      match t.conjunct, conjunctRole c with
      | .none, _ => fresh.conjunct
      | s, .extend => s
      | _, .linker => .linked
      | _, _ => fresh.conjunct
    unpaired := if b = .regional then !t.unpaired else false }

end Tail

/-- The clusters of a text, given the one in progress, its characters in
reverse. -/
def clustersFrom (current : List Char) (tail : Tail) : List Char → List (List Char)
  | [] => [current.reverse]
  | c :: cs =>
    if tail.joins c then clustersFrom (c :: current) (tail.extend c) cs
    else current.reverse :: clustersFrom [c] (Tail.start c) cs

/-- The extended grapheme clusters of a text. -/
def clusters : List Char → List (List Char)
  | [] => []
  | c :: cs => clustersFrom [c] (Tail.start c) cs

end LoxScan.Text

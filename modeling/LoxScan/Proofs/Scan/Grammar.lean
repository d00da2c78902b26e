import LoxScan.Token.Basic
import LoxScan.Scan.Segment

/-!
# The lexical grammar

What a source is cut into, said without the function that cuts it.
`IsLexeme` lists the texts of tokens with the kind and the value each of
them stands for. `Fits` says of each form of segment on its own when it
may stand at the front of a text; several forms may fit at once, and
`IsNext` takes the one that comes first in the order of `rank`. A whole
text is `Segmented` if each of its segments is the next one of what is
left at that point.

The grammar is read off greedily, but greed is not part of it: `IsLongest`
compares with every other lexeme, of whatever kind, that the text starts
with.
-/

namespace LoxScan

/-- The lexemes of Lox: a text, the kind of token it makes and the value
it has, if any. -/
inductive IsLexeme : Kind → List Char → Option Literal → Prop
  | symbol (s : Symbol) : IsLexeme (.symbol s) s.spelling none
  /-- Digits alone: `[0-9]+`. -/
  | whole {digits : List Char} :
      digits ≠ [] → (∀ d ∈ digits, isDigit d = true) →
      IsLexeme .number digits (some (.number (Binary64.ofNumeral digits)))
  /-- Digits on both sides of a point: `[0-9]+\.[0-9]+`. -/
  | fraction {whole part : List Char} :
      whole ≠ [] → (∀ d ∈ whole, isDigit d = true) →
      part ≠ [] → (∀ d ∈ part, isDigit d = true) →
      IsLexeme .number (whole ++ '.' :: part)
        (some (.number (Binary64.ofNumeral (whole ++ '.' :: part))))
  /-- A text between two quotes, newlines included. -/
  | string {body : List Char} :
      '"' ∉ body →
      IsLexeme .string ('"' :: (body ++ ['"'])) (some (.text (String.ofList body)))
  | keyword (k : Keyword) : IsLexeme (.keyword k) k.spelling.toList none
  /-- A word, `[A-Za-z_][A-Za-z0-9_]*`, that is not reserved. -/
  | identifier {c : Char} {cs : List Char} :
      isWordStart c = true → (∀ d ∈ cs, isWordPart d = true) →
      (∀ k : Keyword, k.spelling.toList ≠ c :: cs) →
      IsLexeme .identifier (c :: cs) none

/-- `text` is a lexeme of this kind, and no lexeme that `cs` starts with
is longer. -/
def IsLongest (cs : List Char) (kind : Kind) (text : List Char) : Prop :=
  (∃ value, IsLexeme kind text value) ∧ text <+: cs
    ∧ ∀ kind' text' value', IsLexeme kind' text' value' → text' <+: cs →
        text'.length ≤ text.length

namespace Segment

/-- The forms a segment at the front of a text may have. -/
inductive Fits : List Char → Segment → Prop
  | space {c : Char} {cs : List Char} :
      c ∈ [' ', '\t', '\r', '\n'] → Fits (c :: cs) (.space c)
  /-- The line ends at a line feed or with the text. -/
  | comment {line after : List Char} :
      '\n' ∉ line → (∀ c ∈ after.head?, c = '\n') →
      Fits ('/' :: '/' :: (line ++ after)) (.comment ('/' :: '/' :: line))
  | lexeme {cs : List Char} {kind : Kind} {text : List Char} :
      IsLongest cs kind text → Fits cs (.lexeme kind text)
  | openString {body : List Char} :
      '"' ∉ body → Fits ('"' :: body) (.openString ('"' :: body))
  | stray {c : Char} {cs : List Char} : Fits (c :: cs) (.stray c)

/-- The order of priority of the forms. -/
def rank : Segment → Nat
  | space _ => 0
  | comment _ => 1
  | lexeme _ _ => 2
  | openString _ => 3
  | stray _ => 4

/-- The segment at the front of a text: of those that fit, the one of the
first form. -/
def IsNext (cs : List Char) (g : Segment) : Prop :=
  Fits cs g ∧ ∀ other, Fits cs other → g.rank ≤ other.rank

def textOf (gs : List Segment) : List Char := gs.flatMap text

@[simp] theorem textOf_nil : textOf [] = [] := rfl

@[simp] theorem textOf_cons (g : Segment) (gs : List Segment) :
    textOf (g :: gs) = g.text ++ textOf gs := rfl

@[simp] theorem textOf_append (gs hs : List Segment) :
    textOf (gs ++ hs) = textOf gs ++ textOf hs := List.flatMap_append

end Segment

/-- `Segmented cs gs rest`: from left to right `cs` is cut into the
segments `gs`, and `rest` is left. What is left takes part, since it is
seen when a segment before it is chosen. -/
inductive Segmented : List Char → List Segment → List Char → Prop
  | done (cs : List Char) : Segmented cs [] cs
  | cut {after rest : List Char} {g : Segment} {gs : List Segment} :
      g.IsNext (g.text ++ after) → Segmented after gs rest →
      Segmented (g.text ++ after) (g :: gs) rest

end LoxScan

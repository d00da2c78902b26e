/-!
# Strings in a TOML document

Four forms: quoted with escapes or literal, on one line or over several.
Each is read by an automaton that sees one character and what follows
it, and either puts out characters and goes on, or closes the string, or
refuses. `scanBody` runs any of them.

Writing takes the first form that shows the text as it is, and falls back
on escapes only if there is none.
-/

namespace LoxScan.Toml

/-- Space and tab. -/
def isIndent (c : Char) : Bool := c == ' ' || c == '\t'

/-- The characters of a comment, which are also those of a string that
need no escape for being controls: all but the controls other than
tab. -/
def isShown (c : Char) : Bool :=
  c == '\t' || (0x20 ≤ c.toNat && c.toNat ≠ 0x7F)

/-- Where the reading of a string stands. -/
inductive StringMode where
  | plain
  /-- Behind a backslash. -/
  | escape
  /-- In a character number: digits still to come, value so far. -/
  | code (digits value : Nat)
  /-- Behind a backslash and blanks, a line break to come. -/
  | beforeBreak
  /-- Behind such a line break, where blanks are dropped. -/
  | afterBreak
  deriving DecidableEq, Repr

/-- What one character of a string does. -/
inductive StringStep where
  | emit (out : List Char) (mode : StringMode)
  | close (out rest : List Char)
  | refuse
  deriving DecidableEq, Repr

/-- Runs an automaton to the end of a string: its text, and what follows
it. -/
def scanBody (step : StringMode → Char → List Char → StringStep) :
    StringMode → List Char → Option (List Char × List Char)
  | _, [] => none
  | mode, c :: cs =>
    match step mode c cs with
    | .refuse => none
    | .close out rest => some (out, rest)
    | .emit out mode => do
      let (text, rest) ← scanBody step mode cs
      return (out ++ text, rest)

/-- Whether a character is the start of a line break. -/
def startsBreak (c : Char) (cs : List Char) : Bool :=
  c == '\n' || (c == '\r' && cs.head? == some '\n')

/-- What a line break puts out: always a line feed. -/
def breakText (c : Char) : List Char := if c = '\n' then ['\n'] else []

/-- The close of a string over several lines, seen at its third last
quote: up to two quotes before it are text. -/
def closeMulti (quote : Char) (cs : List Char) : Option StringStep :=
  match cs with
  | a :: b :: rest =>
    if a = quote ∧ b = quote then
      match rest with
      | x :: y :: more =>
        if x = quote ∧ y = quote then some (.close [quote, quote] more)
        else if x = quote then some (.close [quote] (y :: more))
        else some (.close [] rest)
      | [x] => if x = quote then some (.close [quote] []) else some (.close [] rest)
      | [] => some (.close [] [])
    else none
  | _ => none

def hexValue? (c : Char) : Option Nat :=
  if '0' ≤ c ∧ c ≤ '9' then some (c.toNat - '0'.toNat)
  else if 'a' ≤ c ∧ c ≤ 'f' then some (c.toNat - 'a'.toNat + 10)
  else if 'A' ≤ c ∧ c ≤ 'F' then some (c.toNat - 'A'.toNat + 10)
  else none

/-- One character of a quoted string, outside escapes. -/
def plainStep (multi : Bool) (c : Char) (cs : List Char) : StringStep :=
  if c = '"' then
    if multi then (closeMulti '"' cs).getD (.emit ['"'] .plain)
    else .close [] cs
  else if c = '\\' then .emit [] .escape
  else if isShown c then .emit [c] .plain
  else if multi && startsBreak c cs then .emit (breakText c) .plain
  else .refuse

/-- One character of a quoted string. -/
def quotedStep (multi : Bool) : StringMode → Char → List Char → StringStep
  | .plain, c, cs => plainStep multi c cs
  | .escape, c, cs =>
    if c = 'b' then .emit ['\x08'] .plain
    else if c = 't' then .emit ['\t'] .plain
    else if c = 'n' then .emit ['\n'] .plain
    else if c = 'f' then .emit ['\x0c'] .plain
    else if c = 'r' then .emit ['\r'] .plain
    else if c = '"' ∨ c = '\\' then .emit [c] .plain
    else if c = 'u' then .emit [] (.code 4 0)
    else if c = 'U' then .emit [] (.code 8 0)
    else if multi && isIndent c then .emit [] .beforeBreak
    else if multi && startsBreak c cs then .emit [] .afterBreak
    else .refuse
  | .code digits value, c, _ =>
    match hexValue? c with
    | none => .refuse
    | some d =>
      let value := 16 * value + d
      if 1 < digits then .emit [] (.code (digits - 1) value)
      else if value.isValidChar then .emit [Char.ofNat value] .plain
      else .refuse
  | .beforeBreak, c, cs =>
    if isIndent c then .emit [] .beforeBreak
    else if startsBreak c cs then .emit [] .afterBreak
    else .refuse
  | .afterBreak, c, cs =>
    if isIndent c || startsBreak c cs then .emit [] .afterBreak
    else plainStep multi c cs

def literalStep (multi : Bool) (_ : StringMode) (c : Char) (cs : List Char) : StringStep :=
  if c = '\'' then
    if multi then (closeMulti '\'' cs).getD (.emit ['\''] .plain)
    else .close [] cs
  else if isShown c then .emit [c] .plain
  else if multi && startsBreak c cs then .emit (breakText c) .plain
  else .refuse

/-- A text without a line break at its start. -/
def skipBreak : List Char → List Char
  | '\n' :: cs => cs
  | '\r' :: '\n' :: cs => cs
  | cs => cs

/-- A string on one line, from its opening quote on. -/
def readLineString? : List Char → Option (List Char × List Char)
  | '"' :: cs => scanBody (quotedStep false) .plain cs
  | '\'' :: cs => scanBody (literalStep false) .plain cs
  | _ => none

/-- A string of any form, from its opening quotes on. A line break right
behind three quotes is not part of the text. -/
def readString? : List Char → Option (List Char × List Char)
  | '"' :: '"' :: '"' :: cs => scanBody (quotedStep true) .plain (skipBreak cs)
  | '\'' :: '\'' :: '\'' :: cs => scanBody (literalStep true) .plain (skipBreak cs)
  | cs => readLineString? cs

def longestRun (x : Char) (cs : List Char) : Nat :=
  (cs.foldl (fun (current, best) c =>
    if c = x then (current + 1, max best (current + 1)) else (0, best)) (0, 0)).2

/-- The digits of a character number in a string. -/
def upperHex4 (n : Nat) : List Char :=
  let digit (d : Nat) : Char :=
    if d < 10 then Char.ofNat (d + '0'.toNat) else Char.ofNat (d - 10 + 'A'.toNat)
  [digit (n / 4096 % 16), digit (n / 256 % 16), digit (n / 16 % 16), digit (n % 16)]

/-- A character that is no quote inside a quoted string. -/
def escapeChar (multi : Bool) (c : Char) : List Char :=
  if c = '\x08' then ['\\', 'b']
  else if c = '\t' then ['\\', 't']
  else if c = '\n' then if multi then ['\n'] else ['\\', 'n']
  else if c = '\x0c' then ['\\', 'f']
  else if c = '\r' then ['\\', 'r']
  else if c = '\\' then ['\\', '\\']
  else if isShown c then [c]
  else '\\' :: 'u' :: upperHex4 c.toNat

/-- The inside of a quoted string. A quote is escaped if it is the third
in a row or the string is on one line; the count starts again behind an
escaped one. -/
def escapeBody (multi : Bool) : Nat → List Char → List Char
  | _, [] => []
  | quotes, c :: cs =>
    if c = '"' then
      if multi ∧ quotes < 2 then '"' :: escapeBody multi (quotes + 1) cs
      else '\\' :: '"' :: escapeBody multi 0 cs
    else escapeChar multi c ++ escapeBody multi 0 cs

/-- A text in the first form that shows it as it is; with escapes if none
does. The forms over several lines start with a line break if the text
has one. -/
def writeString (cs : List Char) : List Char :=
  let breaks := cs.contains '\n'
  let controls := cs.any fun c => c ≠ '\n' && !isShown c
  let backslash := cs.contains '\\'
  let quotes := longestRun '"' cs
  let apostrophes := longestRun '\'' cs
  let opening := if breaks then ['\n'] else []
  let quoted := '"' :: (escapeBody false 0 cs ++ ['"'])
  let quotedLines := ['"', '"', '"'] ++ opening ++ escapeBody true 0 cs ++ ['"', '"', '"']
  if !controls && !backslash && quotes = 0 && !breaks then quoted
  else if !controls && apostrophes = 0 && !breaks then '\'' :: (cs ++ ['\''])
  else if !controls && !backslash && quotes < 3 then quotedLines
  else if !controls && apostrophes < 3 then
    ['\'', '\'', '\''] ++ opening ++ cs ++ ['\'', '\'', '\'']
  else if breaks then quotedLines
  else quoted

end LoxScan.Toml

/-!
# Text without terminal commands

Text from outside may hold what a terminal takes as commands: control
characters and the sequences that an escape character opens. Where such
text is quoted in a message, only what a terminal would show of it is
kept. A sequence that is not finished ends with the text.

A control that sets text apart takes effect also inside of most sequences.
It interrupts the sequence: what follows is shown, and the sequence goes
on behind that, at the next character that is not shown.
-/

namespace LoxScan.Text

/-- What a terminal is in the middle of. -/
inductive TerminalMode where
  | shown
  /-- Behind an escape character. -/
  | escape
  /-- Behind that and a character that asks for one more. -/
  | escapeMore
  /-- In a control sequence, which a letter ends. -/
  | control
  /-- At the head of a string for the device. -/
  | device
  /-- Behind parameters of such a string. -/
  | deviceParameters
  /-- Behind a character of its head that asks for one more. -/
  | deviceMore
  /-- In a title, which a bell ends. -/
  | title
  /-- In the body of a string, which a terminator ends. -/
  | string
  deriving DecidableEq, Repr

/-- The controls that set text apart. -/
def isLayout (c : Char) : Bool :=
  c == '\t' || c == '\n' || c == '\x0c' || c == '\r'

/-- Whether the encoding of a character holds the byte that terminates a
string. Terminals read bytes, so such a character ends a string as well. -/
def terminatesString (c : Char) : Bool := (String.utf8EncodeChar c).contains 0x9C

namespace TerminalMode

/-- The mode behind a printable character of a sequence. -/
def inSequence (mode : TerminalMode) (c : Char) : TerminalMode :=
  match mode with
  | .shown => .shown
  | .escape =>
    if c ≤ '/' then .escapeMore
    else if c = '[' then .control
    else if c = ']' then .title
    else if c = 'P' then .device
    else if c = 'X' ∨ c = '^' ∨ c = '_' then .string
    else .shown
  | .escapeMore => if c ≤ '/' then .escapeMore else .shown
  | .control => if c < '@' then .control else .shown
  | .device =>
    if c ≤ '/' then .deviceMore
    else if c < '@' then .deviceParameters
    else .string
  | .deviceParameters =>
    if c ≤ '/' then .deviceMore
    else if c < '<' then .deviceParameters
    else .string
  | .deviceMore => if c ≤ '/' then .deviceMore else .string
  | .title => .title
  | .string => .string

def next (mode : TerminalMode) (c : Char) : TerminalMode :=
  if c = '\x1b' then .escape
  else if c = '\x18' ∨ c = '\x1a' then .shown
  else match mode with
    | .title => if c = '\x07' then .shown else .title
    | .string => if terminatesString c then .shown else .string
    | mode => if ' ' ≤ c ∧ c < '\x7f' then mode.inSequence c else mode

def shows (mode : TerminalMode) (c : Char) : Bool :=
  match mode with
  | .shown => isLayout c || (' ' ≤ c && c ≠ '\x7f')
  | .escape | .escapeMore | .control => isLayout c
  | .device | .deviceParameters | .deviceMore | .title | .string => false

end TerminalMode

/-- A terminal between two characters. -/
structure TerminalState where
  mode : TerminalMode := .shown
  /-- Whether the last character was shown, which holds up the sequence
  that it stands in. -/
  showing : Bool := false
  deriving DecidableEq, Repr

namespace TerminalState

/-- Whether a character is shown, and the terminal behind it. A sequence
that is held up is forgotten at a character of more than one byte. -/
def step (s : TerminalState) (c : Char) : Bool × TerminalState :=
  if s.showing && TerminalMode.shown.shows c then
    (true, { s with mode := if c < '\x80' then s.mode else .shown })
  else
    (s.mode.shows c, { mode := s.mode.next c, showing := s.mode.shows c })

end TerminalState

/-- What a terminal goes on to show of a text. -/
def visibleFrom (s : TerminalState) : List Char → List Char
  | [] => []
  | c :: cs =>
    let (isShown, s) := s.step c
    if isShown then c :: visibleFrom s cs else visibleFrom s cs

def visible (text : String) : String := String.ofList (visibleFrom {} text.toList)

end LoxScan.Text

import LoxScan.Source.Span

/-!
# Diagnostics

A diagnostic is a message about a place in a source, with an optional
code and any number of notes and hints. It is complete from the start:
`Diagnostic.error` gives one without code, notes or hints, and each
`with…` function refines it. A later code or span replaces an earlier
one; notes and hints accumulate.
-/

namespace LoxScan

inductive Level where
  /-- Input the phase could not make sense of. -/
  | error
  deriving DecidableEq, Repr

namespace Level

def isError : Level → Bool
  | .error => true

/-- The lower-case name, as in log lines. -/
def name : Level → String
  | .error => "error"

/-- The name that opens a rendered diagnostic. -/
def title : Level → String
  | .error => "Error"

/-- The terminal's number for the color of this level. -/
def colorCode : Level → String
  | .error => "31"

end Level

/-- What a diagnostic is filed under: a series and a number in it. -/
structure Code where
  series : String
  number : UInt32
  deriving DecidableEq, Repr, Inhabited

namespace Code

/-- A character that starts no lexeme. -/
def unexpectedChar : Code := { series := "E", number := 1 }

/-- A string still open at the end of input. -/
def unterminatedString : Code := { series := "E", number := 2 }

/-- A number whose text has no value. -/
def invalidNumber : Code := { series := "E", number := 3 }

/-- Series `E` holds the errors. -/
def isError (c : Code) : Bool := c.series == "E"

/-- The series and the number, the number in at least four digits. -/
def text (c : Code) : String :=
  let digits := toString c.number.toNat
  c.series ++ String.ofList (List.replicate (4 - digits.length) '0') ++ digits

/-- The code as it stands in a log line. -/
def debugText (c : Code) : String := "DiagnosticCode(" ++ c.text ++ ")"

end Code

/-- A message about a place in a source. -/
structure Diagnostic where
  level : Level
  message : String
  span : Span
  code : Option Code
  notes : List String
  helps : List String
  deriving DecidableEq, Repr

namespace Diagnostic

def error (message : String) (span : Span) : Diagnostic :=
  { level := .error, message, span, code := none, notes := [], helps := [] }

def withCode (d : Diagnostic) (code : Code) : Diagnostic := { d with code := some code }

def withSpan (d : Diagnostic) (span : Span) : Diagnostic := { d with span }

def withNote (d : Diagnostic) (note : String) : Diagnostic :=
  { d with notes := d.notes ++ [note] }

def withHelp (d : Diagnostic) (help : String) : Diagnostic :=
  { d with helps := d.helps ++ [help] }

def line (d : Diagnostic) : UInt32 := d.span.line

/-- The summary in one line: place, level, code if there is one, and
message. -/
def header (d : Diagnostic) : String :=
  let code := match d.code with
    | some c => "[" ++ c.text ++ "]"
    | none => ""
  "[line " ++ toString d.span.line.toNat ++ "] " ++ d.level.title ++ code ++ ": " ++ d.message

end Diagnostic

end LoxScan

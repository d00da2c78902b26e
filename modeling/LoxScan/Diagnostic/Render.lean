import LoxScan.Diagnostic.Snippet

/-!
# Showing a diagnostic in its source

A rendered diagnostic is its header, the snippet it points at if the
source has that place, then its notes and hints. A place that cannot be
found costs the snippet and nothing else.
-/

namespace LoxScan.Diagnostic

/-- The number of characters a text has on its first line, carriage
returns at the end of that line left out. -/
def firstLineWidth (covered : List Char) : Nat :=
  let first := covered.takeWhile (· ≠ '\n')
  (first.reverse.dropWhile (· = '\r')).length

/-- The line the diagnostic points at with the spanned columns of that
line marked. The line is looked up before the span. -/
def snippet (d : Diagnostic) (source : String) : Except SourceError Snippet := do
  let text := source.toList
  let line ← lineText text d.span.line
  match Text.slice? text d.span.start d.span.stop with
  | none => .error (.spanOutOfBounds (Text.byteLength text) d.span.start d.span.stop)
  | some covered =>
    let startColumn := max 1 d.span.column.toNat
    return {
      line := String.ofList line
      lineNumber := d.span.line.toNat
      startColumn
      endColumn := startColumn + firstLineWidth covered
      label := none }

def coloredHeader (d : Diagnostic) (color : Bool) : String :=
  if color then "\x1b[1;" ++ d.level.colorCode ++ "m" ++ d.header ++ "\x1b[0m" else d.header

/-- The whole diagnostic, its last line not ended. -/
def render (d : Diagnostic) (source : String) (color : Bool) : String :=
  let shown :=
    if d.span.isDummy then ""
    else match d.snippet source with
      | .ok s => match s.format with
        | some drawn => "\n" ++ drawn
        -- no source is so large that a line of it cannot be drawn
        | none => ""
      | .error _ => ""
  let notes := d.notes.map ("\n    = note: " ++ ·)
  let helps := d.helps.map ("\n    = help: " ++ ·)
  d.coloredHeader color ++ shown ++ String.join notes ++ String.join helps

end LoxScan.Diagnostic

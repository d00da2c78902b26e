import LoxScan.Disk.Access
import LoxScan.Output.Report
import LoxScan.Prompt.Command

/-!
# One line at the prompt

A blank line does nothing, a command is carried out, and anything else is
scanned by itself. What a line says depends on that line and the files
alone, so an error in one line never shows in the next.
-/

namespace LoxScan

/-- What the prompt does after a line. -/
inductive LineOutcome where
  | goOn
  | leave
  deriving DecidableEq, Repr

def versionText : String := "loxc 0.1.0"

def clearScreen : String := "\x1b[2J\x1b[H"

variable {m : Type → Type} [Monad m] [MonadDisk m]

/-- Scans the file at a path. One that cannot be read is reported and
nothing else happens. -/
def loadScript (o : Options) (path : String) : m (List Effect) := do
  match ← MonadDisk.readText path with
  | .ok source => return (reportSource o source).1
  | .error cause =>
    return [.complain ("Error: " ++ (Failure.unreadable path cause).message ++ "\n")]

def PromptCommand.perform (o : Options) (argument : Option (List Char)) :
    PromptCommand → m (List Effect × LineOutcome)
  | .help => return (helpLines.map (fun line => .print (line ++ "\n")), .goOn)
  | .exit => return ([], .leave)
  | .clear => return ([.print clearScreen, .flush], .goOn)
  | .version => return ([.print (versionText ++ "\n")], .goOn)
  | .load =>
    match argument with
    | some path => return (← loadScript o (String.ofList path), .goOn)
    | none => return ([.complain "Error: .load requires a file path\n"], .goOn)

def evalLine (o : Options) (line : String) : m (List Effect × LineOutcome) := do
  if (Text.trim line.toList).isEmpty then return ([], .goOn)
  else match PromptCommand.parse line.toList with
    | some (command, argument) => command.perform o argument
    | none => return ((reportSource o line).1, .goOn)

end LoxScan

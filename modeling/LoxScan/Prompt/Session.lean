import LoxScan.Config.Store
import LoxScan.Prompt.Input
import LoxScan.Prompt.Line

/-!
# A session at the prompt

A session begins by looking for its history; what is missing there is
logged and hinders nothing. Then it reads lines until it is told to leave
or the input ends or fails. The text of the prompt is shown only where
the terminal has no line editing.
-/

namespace LoxScan

/-- What a session keeps to. -/
structure Session where
  options : Options
  /-- What is shown before each line, if anything is. -/
  prompt : Option String
  deriving Repr

namespace Session

/-- Terminals without line editing. -/
def plainTerminals : List String := ["dumb", "cons25", "emacs"]

def ofSettings (o : Options) (s : PromptSettings) (env : Environment) : Session :=
  let terminal := (env.get? "TERM").getD "xterm"
  let isPlain := plainTerminals.contains (String.ofList (terminal.toList.map Char.toLower))
  { options := o, prompt := if isPlain then some s.prompt else none }

/-- What is shown before a line is read. -/
def opening (s : Session) : List Effect :=
  match s.prompt with
  | some text => [.print text, .flush]
  | none => []

variable {m : Type → Type} [Monad m] [MonadDisk m]

/-- Makes the directory of a history. That it cannot be made is worth a
warning. -/
def prepareHistory (path : String) : m (List Effect) := do
  match Path.parent? path with
  | none => return []
  | some directory =>
    match ← MonadDisk.makeDirectories directory with
    | .ok () => return []
    | .error cause =>
      return [.log {
        level := .warn
        message := "cannot create history directory"
        fields := [("path", directory), ("error", cause.message)] }]

def openHistory (o : Options) (path : String) : m (List Effect) := do
  let prepared ← prepareHistory path
  match ← MonadDisk.readText path with
  | .ok _ => return prepared
  | .error cause =>
    return prepared ++ o.trace [{
      level := .debug
      message := "no history loaded"
      fields := [("path", path), ("error", cause.message)] }]

inductive Ending where
  /-- It was told to leave, or the input is over. -/
  | left
  | failed (failure : Failure)
  /-- A backspace splits a character. -/
  | brokenOff
  deriving DecidableEq, Repr

/-- How a session stands after a line. -/
inductive Standing where
  | listening
  | ended (ending : Ending)
  deriving DecidableEq, Repr

/-- What a line of the input does; one that is no text ends the session,
and so does one that cannot be cleaned. -/
def respond (s : Session) : Except DiskFault String → m (List Effect × Standing)
  | .error cause => return ([], .ended (.failed (.prompt (.disk cause))))
  | .ok typed => do
    match Prompt.cleanLine? typed with
    | none => return ([], .ended .brokenOff)
    | some line =>
      let (effects, outcome) ← evalLine s.options line
      match outcome with
      | .leave => return (effects, .ended .left)
      | .goOn => return (effects, .listening)

/-- What the lines of an input do, one after the other, and how that
ends. -/
def converse (s : Session) : List (Except DiskFault String) → m (List Effect × Ending)
  | [] => return (s.opening, .left)
  | line :: lines => do
    let (effects, standing) ← s.respond line
    match standing with
    | .ended ending => return (s.opening ++ effects, ending)
    | .listening =>
      let (later, ending) ← s.converse lines
      return (s.opening ++ effects ++ later, ending)

end Session

end LoxScan

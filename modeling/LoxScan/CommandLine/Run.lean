import LoxScan.CommandLine.Help
import LoxScan.Prompt.Session

/-!
# Runs of the program

A run reads its arguments, then its configuration, and then either scans
one script or opens the prompt. Its outcome is an exit code and what is
done to the streams. Lexical errors in a script have an exit code of
their own; those at the prompt have none.
-/

namespace LoxScan

/-- How a run ends. -/
structure Outcome where
  code : UInt8
  effects : List Effect
  deriving Repr

namespace Outcome

def success (effects : List Effect) : Outcome := { code := 0, effects }

/-- The exit code of a script with lexical errors. -/
def dataError : UInt8 := 65

/-- The exit code of a run that is broken off. -/
def brokenOff : UInt8 := 101

def failure (effects : List Effect) (f : Failure) : Outcome :=
  { code := f.exitCode, effects := effects ++ [.complain (f.report ++ "\n")] }

def firstLine (text : String) : String := String.ofList (text.toList.takeWhile (· ≠ '\n'))

def ofRefusal (env : Environment) : Refusal → Outcome
  | .help long => success [.print (Help.text env long)]
  | .version => success [.print (versionText ++ "\n")]
  | .mistake error =>
    { code := 64, effects := [.complain (firstLine ("error: " ++ error.message) ++ "\n")] }

end Outcome

/-- The configuration with what arguments override. Color needs a
terminal to be shown on. -/
def Config.override (c : Config) (r : Request) (terminal : Bool) : Config :=
  { c with
    verbose := c.verbose || r.verbose
    color := c.color && !r.noColor && terminal
    format := r.format.getD c.format }

def Options.ofConfig (c : Config) : Options :=
  { format := c.format, color := c.color, verbose := c.verbose }

def usageText : String := "Usage: loxc [script]"

variable {m : Type → Type} [Monad m] [MonadDisk m]

def runScript (o : Options) (begun : List Effect) (path : String) : m Outcome := do
  match ← MonadDisk.readText path with
  | .error cause => return .failure begun (.unreadable path cause)
  | .ok source =>
    let (effects, report) := reportSource o source
    let before := o.trace [{
      level := .debug
      message := "scanning file"
      fields := [("path", path), ("bytes", toString source.utf8ByteSize)] }]
    let after := o.trace [{
      level := .debug
      message := "file scanned"
      fields := [
        ("tokens", toString report.tokens),
        ("errors", toString report.errors)] }]
    return {
      code := if report.hasErrors then Outcome.dataError else 0
      effects := begun ++ before ++ effects ++ after }

/-- A run up to the point where it reads input, if it gets there. -/
inductive Start where
  | finished (outcome : Outcome)
  | prompt (begun : List Effect) (session : Session)

def startWith (env : Environment) (c : Config) (script : Option String) : m Start := do
  let o := Options.ofConfig c
  let begun := o.trace [{
    level := .debug
    message := "configuration resolved"
    fields := [("config", c.logText)] }]
  match script with
  | some path => return .finished (← runScript o begun path)
  | none =>
    let history ← Session.openHistory o (c.repl.historyPath env)
    return .prompt (begun ++ history) (Session.ofSettings o c.repl env)

/-- Starts what arguments and the environment ask for. `terminal` says
whether the error stream is one. -/
def start (env : Environment) (terminal : Bool) (arguments : List String) : m Start := do
  match Request.parse env arguments with
  | .error refusal => return .finished (.ofRefusal env refusal)
  | .ok request =>
    if 1 < request.scripts.length then return .finished (.failure [] (.usage usageText))
    else match ← Config.load env request.config with
      | .error failure => return .finished (.failure [] failure)
      | .ok config => startWith env (config.override request terminal) request.scripts.head?

def Outcome.ofSession (begun effects : List Effect) : Session.Ending → Outcome
  | .left => .success (begun ++ effects)
  | .failed f => .failure (begun ++ effects) f
  | .brokenOff =>
    { code := Outcome.brokenOff
      effects := begun ++ effects ++ [.complain "a backspace splits a character\n"] }

/-- A whole run on an input that is known from the start. -/
def run (env : Environment) (terminal : Bool) (arguments : List String) (input : ByteArray) :
    m Outcome := do
  match ← start env terminal arguments with
  | .finished outcome => return outcome
  | .prompt begun session =>
    let (effects, ending) ← session.converse (Prompt.inputLines input)
    return .ofSession begun effects ending

end LoxScan

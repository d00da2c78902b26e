import LoxScan.Output.Format
import LoxScan.Text.Quoted

/-!
# Settings

What a configuration file may say, with the default for everything it
leaves out.
-/

namespace LoxScan

structure PromptSettings where
  /-- What is shown before each line. -/
  prompt : String := "> "
  /-- Where the history is kept; a relative path is one below the user's
  data directory. -/
  historyFile : String := ".loxc_history"
  /-- The most lines the history keeps. -/
  maxHistory : UInt64 := 1000
  deriving DecidableEq, Repr

/-- The settings of a run. -/
structure Config where
  verbose : Bool := false
  color : Bool := true
  format : Format := .text
  repl : PromptSettings := {}
  deriving DecidableEq, Repr

namespace Config

/-- All settings as one field of a log entry. -/
def logText (c : Config) : String :=
  String.join [
    "Config \x7b verbose: ", toString c.verbose,
    ", color: ", toString c.color,
    ", format: ", c.format.logName,
    ", repl: ReplConfig \x7b prompt: ", Text.Quoted.quote c.repl.prompt,
    ", history_file: ", Text.Quoted.quotePath c.repl.historyFile,
    ", max_history: ", toString c.repl.maxHistory.toNat,
    " \x7d \x7d"]

end Config

end LoxScan

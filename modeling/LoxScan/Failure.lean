import LoxScan.Config.Fault

/-!
# Why a run fails

Lexical errors are diagnostics and make no run fail. What does is listed
here: each failure has a message, the chain of causes beneath it, and the
exit code of its class in the convention of the system's mail programs.
-/

namespace LoxScan

/-- What keeps a line from being read at the prompt. -/
inductive PromptFault where
  | disk (cause : DiskFault)
  | endOfInput
  | interrupted
  deriving DecidableEq, Repr

def PromptFault.message : PromptFault → String
  | .disk cause => cause.message
  | .endOfInput => "EOF"
  | .interrupted => "Interrupted"

inductive Failure where
  /-- The command line asks for something that is not offered. -/
  | usage (text : String)
  /-- A script cannot be read. -/
  | unreadable (path : String) (cause : DiskFault)
  | config (fault : ConfigFault)
  /-- A stream or a file other than a script fails. -/
  | disk (cause : DiskFault)
  /-- A JSON object cannot be written. -/
  | json (cause : DiskFault)
  | prompt (fault : PromptFault)
  deriving DecidableEq, Repr

namespace Failure

def message : Failure → String
  | .usage text => text
  | .unreadable path cause => "Could not read '" ++ path ++ "': " ++ cause.message
  | .config fault => "Configuration error: " ++ fault.message
  | .disk cause => "IO error: " ++ cause.message
  | .json cause => "JSON error: " ++ cause.message
  | .prompt fault => "Prompt error: " ++ fault.message

/-- The messages of the causes beneath a failure, nearest first. Where
the cause wraps a fault of the system, both have the same message. -/
def causes : Failure → List String
  | .usage _ | .config _ => []
  | .unreadable _ cause | .disk cause => [cause.message]
  | .json cause => [cause.message, cause.message]
  | .prompt (.disk cause) => [cause.message, cause.message]
  | .prompt fault => [fault.message]

def exitCode : Failure → UInt8
  | .usage _ => 64
  | .json _ => 70
  | .unreadable _ _ | .disk _ | .prompt _ => 74
  | .config _ => 78

/-- What the program says before it gives up: the whole chain, except
that a reminder of the usage stands alone. -/
def report : Failure → String
  | .usage text => text
  | failure => "error: " ++ String.intercalate ": " (failure.message :: failure.causes)

end Failure

end LoxScan

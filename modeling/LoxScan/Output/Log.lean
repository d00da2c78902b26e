/-!
# The log

An entry of the log is one line: its level, a message, and the fields
that go with it. Messages may quote the source, so control characters in
them are spelled out; fields stand as they are.
-/

namespace LoxScan

/-- Warnings are always shown, debugging entries if asked for. -/
inductive LogLevel where
  | debug
  | warn
  deriving DecidableEq, Repr

/-- The name of a level, five columns wide. -/
def LogLevel.column : LogLevel → String
  | .debug => "DEBUG"
  | .warn => " WARN"

structure LogEntry where
  level : LogLevel
  message : String
  /-- Names and values, in order. -/
  fields : List (String × String)
  deriving DecidableEq, Repr

namespace LogEntry

/-- A character of a message. Those that a terminal takes as a command
are spelled by their number. -/
def shownChar (c : Char) : List Char :=
  if c = '\x1b' then "\\x1b".toList
  else if c = '\x07' then "\\x07".toList
  else if c = '\x08' then "\\x08".toList
  else if c = '\x0c' then "\\x0c".toList
  else if c = '\x7f' then "\\x7f".toList
  else if 0x80 ≤ c.toNat ∧ c.toNat ≤ 0x9F then
    "\\u\x7b".toList ++ Nat.toDigits 16 c.toNat ++ ['\x7d']
  else [c]

/-- The line of an entry, not ended. -/
def text (e : LogEntry) : String :=
  let message := String.ofList (e.message.toList.flatMap shownChar)
  let fields := e.fields.map fun (name, value) => " " ++ name ++ "=" ++ value
  e.level.column ++ " " ++ message ++ String.join fields

end LogEntry

end LoxScan

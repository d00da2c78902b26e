import LoxScan.Diagnostic.Render
import LoxScan.Output.Effect
import LoxScan.Output.Format
import LoxScan.Scan.Scanner

/-!
# Reporting a scan

Scanning a source is reported as effects: its tokens on the output, which
is then flushed, and its rendered diagnostics on the error stream after
them. Lexical errors are counted and make nothing fail.
-/

namespace LoxScan

/-- How a scan is reported. -/
structure Options where
  format : Format := .text
  /-- Whether diagnostics are colored. -/
  color : Bool := false
  /-- Whether the log tells what happens. -/
  verbose : Bool := false
  deriving DecidableEq, Repr

/-- The record of a token and the end of its line. -/
def Token.effects (format : Format) (t : Token) : List Effect :=
  match format with
  | .text => [.print (t.listing ++ "\n")]
  | .json => [.printObject t.json, .print "\n"]

def writeTokens (format : Format) (tokens : List Token) : List Effect :=
  tokens.flatMap (Token.effects format) ++ [.flush]

def Diagnostic.logEntry (d : Diagnostic) : LogEntry :=
  let code := match d.code with
    | some code => "Some(" ++ code.debugText ++ ")"
    | none => "None"
  { level := .debug
    message := d.message
    fields := [("line", toString d.line.toNat), ("level", d.level.name), ("code", code)] }

def Scan.logEntries (s : Scan) (source : String) : List LogEntry :=
  s.diagnostics.map Diagnostic.logEntry ++ [
    { level := .debug
      message := "scan complete"
      fields := [
        ("tokens", toString s.tokens.length),
        ("lines", toString s.lastLine.toNat),
        ("bytes", toString source.utf8ByteSize)] }]

structure Report where
  /-- The tokens, the end mark included. -/
  tokens : Nat
  errors : Nat
  deriving DecidableEq, Repr

namespace Report

def hasErrors (r : Report) : Bool := 0 < r.errors

def ofScan (s : Scan) : Report :=
  { tokens := s.tokens.length
    errors := s.diagnostics.countP (·.level.isError) }

end Report

/-- Entries of the log, if it is kept. -/
def Options.trace (o : Options) (entries : List LogEntry) : List Effect :=
  if o.verbose then entries.map .log else []

/-- The effects of scanning a source, and what was counted. -/
def reportSource (o : Options) (source : String) : List Effect × Report :=
  let s := scan source
  (o.trace (s.logEntries source) ++ writeTokens o.format s.tokens ++
    s.diagnostics.map (fun d => .complain (d.render source o.color ++ "\n")),
    Report.ofScan s)

end LoxScan

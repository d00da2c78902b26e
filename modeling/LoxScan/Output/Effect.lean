import LoxScan.Failure
import LoxScan.Output.Log

/-!
# What a run does to its streams

The output of a run is a list of effects, computed before anything is
written. `Streams.perform` carries such a list out against streams that
may refuse: it stops at the first refusal, and what was taken up to there
stays written. A stream takes a text byte by byte, so how a text was cut
into effects never shows in what a failing stream has taken.
-/

namespace LoxScan

/-- One thing done to the streams. -/
inductive Effect where
  /-- Text for the output. -/
  | print (text : String)
  /-- A JSON object for the output, whose failure is one of its own. -/
  | printObject (text : String)
  /-- The output is made to reach its destination. -/
  | flush
  /-- Text for the error stream. -/
  | complain (text : String)
  /-- An entry for the log, which shares the error stream. No failure to
  write it stops a run. -/
  | log (entry : LogEntry)
  deriving DecidableEq, Repr

/-- A stream: what it has taken, how much it takes in all, and what it
says then. -/
structure Sink where
  taken : ByteArray
  /-- The most bytes it takes, if there is a limit. -/
  limit : Option Nat
  /-- The fault of a write beyond the limit. -/
  fault : DiskFault

namespace Sink

def unlimited : Sink := { taken := ByteArray.empty, limit := none, fault := .other "" }

/-- A stream that takes some bytes and then fails. -/
def limited (limit : Nat) (fault : DiskFault) : Sink :=
  { taken := ByteArray.empty, limit := some limit, fault }

/-- The number of bytes that still fit of `size`, where some were taken
before. -/
def fitting (limit : Option Nat) (before size : Nat) : Nat :=
  match limit with
  | none => size
  | some limit => min size (limit - before)

/-- Takes as much of a text as fits; the fault if that is not all. -/
def write : Sink → String → Option DiskFault × Sink
  | { taken, limit, fault }, text =>
    let bytes := text.toUTF8
    let fits := fitting limit taken.size bytes.size
    if fits = bytes.size then (none, { taken := taken ++ bytes, limit, fault })
    else (some fault, { taken := taken ++ bytes.extract 0 fits, limit, fault })

end Sink

structure Streams where
  out : Sink
  err : Sink
  /-- What flushing the output says if it fails. -/
  flushFault : Option DiskFault

namespace Streams

def unlimited : Streams := { out := .unlimited, err := .unlimited, flushFault := none }

/-- Text for the output; a fault becomes a failure as told. -/
def toOut : Streams → String → (DiskFault → Failure) → Option Failure × Streams
  | { out, err, flushFault }, text, failure =>
    let (fault, out) := out.write text
    (fault.map failure, { out, err, flushFault })

def toErr : Streams → String → Option Failure × Streams
  | { out, err, flushFault }, text =>
    let (fault, err) := err.write text
    (fault.map .disk, { out, err, flushFault })

def perform (s : Streams) : Effect → Option Failure × Streams
  | .print text => s.toOut text .disk
  | .printObject text => s.toOut text .json
  | .flush => (s.flushFault.map .disk, s)
  | .complain text => s.toErr text
  | .log entry => (none, (s.toErr (entry.text ++ "\n")).2)

/-- Effects in a row, up to the first that fails. -/
def performAll (s : Streams) : List Effect → Option Failure × Streams
  | [] => (none, s)
  | effect :: effects =>
    match s.perform effect with
    | (none, s) => s.performAll effects
    | (some failure, s) => (some failure, s)

end Streams

namespace Effect

def outText : Effect → String
  | .print text | .printObject text => text
  | .flush | .complain _ | .log _ => ""

def errText : Effect → String
  | .complain text => text
  | .log entry => entry.text ++ "\n"
  | .print _ | .printObject _ | .flush => ""

/-- The whole output of some effects, where nothing fails. -/
def outTexts (effects : List Effect) : String := String.join (effects.map outText)

/-- All that some effects say on the error stream, where nothing
fails. -/
def errTexts (effects : List Effect) : String := String.join (effects.map errText)

end Effect

end LoxScan

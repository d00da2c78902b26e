import LoxScan.CommandLine.Run

/-!
# The program

The outer layer: it answers the questions a run asks about files, carries
out what a run does to the streams, and reads the lines of the prompt.
-/

namespace LoxScan

/-- The fault with one of the system's numbers, which some calls report
with a minus. -/
def DiskFault.ofCode (reported : UInt32) (details : String) : DiskFault :=
  let code := if reported < 0x80000000 then reported else 0 - reported
  if code = 2 then .notFound
  else if code = 17 then .alreadyExists
  else if code = 20 then .notADirectory
  else if code = 21 then .isADirectory
  else if code = 36 then .nameTooLong
  else .other (details ++ " (os error " ++ toString code ++ ")")

def DiskFault.ofError : IO.Error → DiskFault
  | .noFileOrDirectory _ code details | .alreadyExists _ code details
  | .inappropriateType _ code details | .invalidArgument _ code details
  | .permissionDenied _ code details | .resourceExhausted _ code details
  | .resourceVanished code details | .otherError code details => .ofCode code details
  | e => .other (toString e)

namespace Program

/-- An action whose fault is its answer. -/
def orFault (action : IO α) : IO (Except DiskFault α) := do
  try return .ok (← action)
  catch e => return .error (.ofError e)

instance : MonadDisk IO where
  readText path := do
    match ← orFault (IO.FS.readBinFile path) with
    | .error cause => return .error cause
    | .ok bytes =>
      match String.fromUTF8? bytes with
      | some text => return .ok text
      | none => return .error .notUtf8
  hasPath path := return (← orFault (IO.FS.realPath path)).isOk
  isDirectory path := do
    match ← orFault (IO.FS.realPath path) with
    | .ok place => place.isDir
    | .error _ => return false
  makeDirectory path := orFault (IO.FS.createDir path)
  write path text := orFault (IO.FS.writeFile path text)

def variableNames : List String := [
  "HOME", "XDG_CONFIG_HOME", "XDG_DATA_HOME", "TERM",
  verboseVariable, configVariable, noColorVariable]

def currentEnvironment : IO Environment := do
  let bindings ← variableNames.filterMapM fun name => do
    return (← IO.getEnv name).map (name, ·)
  return { bindings, accountHome := none }

/-- Writes a text; a fault becomes a failure as told. -/
def writeTo (stream : IO.FS.Stream) (text : String) (failure : DiskFault → Failure) :
    IO (Option Failure) := do
  match ← orFault (stream.putStr text) with
  | .ok () => return none
  | .error cause => return some (failure cause)

def perform (effect : Effect) : IO (Option Failure) := do
  let out ← IO.getStdout
  let err ← IO.getStderr
  match effect with
  | .print text => writeTo out text .disk
  | .printObject text => writeTo out text .json
  | .flush =>
    match ← orFault out.flush with
    | .ok () => return none
    | .error cause => return some (.disk cause)
  | .complain text => writeTo err text .disk
  | .log entry =>
    discard (writeTo err (entry.text ++ "\n") .disk)
    return none

/-- Carries out effects up to the first that fails. -/
def performAll : List Effect → IO (Option Failure)
  | [] => return none
  | effect :: effects => do
    match ← perform effect with
    | none => performAll effects
    | some failure => return some failure

def finish (outcome : Outcome) : IO UInt32 := do
  match ← performAll outcome.effects with
  | none => return outcome.code.toUInt32
  | some failure =>
    discard (perform (.complain (failure.report ++ "\n")))
    return failure.exitCode.toUInt32

/-- The bytes of the next line of the input after some that were read,
the last one first. -/
partial def readBytes (input : IO.FS.Stream) (backwards : List UInt8) : IO (List UInt8) := do
  match (← input.read 1).data.toList with
  | [] => return backwards.reverse
  | bytes =>
    if bytes.contains 10 then return (bytes ++ backwards).reverse
    else readBytes input (bytes ++ backwards)

def readLine? (input : IO.FS.Stream) : IO (Option (Except DiskFault String)) := do
  match ← orFault (readBytes input []) with
  | .error cause => return some (.error cause)
  | .ok [] => return none
  | .ok bytes => return some (Prompt.readLine bytes)

/-- Reads and answers lines until the session is over. -/
partial def converse (session : Session) (input : IO.FS.Stream) : IO Session.Ending := do
  if let some failure ← performAll session.opening then return .failed failure
  match ← readLine? input with
  | none => return .left
  | some line =>
    let (effects, standing) ← session.respond line
    if let some failure ← performAll effects then return .failed failure
    match standing with
    | .ended ending => return ending
    | .listening => converse session input

end Program

end LoxScan

open LoxScan Program in
def main (arguments : List String) : IO UInt32 := do
  let env ← currentEnvironment
  match ← start env (← (← IO.getStderr).isTty) arguments with
  | .finished outcome => finish outcome
  | .prompt begun session =>
    let ending ← match ← performAll begun with
      | some failure => pure (.failed failure)
      | none => converse session (← IO.getStdin)
    finish (.ofSession [] [] ending)

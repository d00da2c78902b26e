import LoxScan.Config.Environment
import LoxScan.Output.Format
import LoxScan.Text.Terminal

/-!
# Arguments

The arguments are switches, options with a value, and scripts, in any
order until a lone `--` makes everything after it a script. What an
argument says takes effect when the next one is recognised: an option
waits for its value and a row of scripts for its end. So a mistake in a
value is reported only if no unknown argument follows right behind it,
and a request for help counts only if nothing before it is wrong.

Settings that no argument gives may come from the environment. They are
looked at last, so a request for help wins over any mistake in them.
-/

namespace LoxScan

/-- Options without a value. -/
inductive Switch where
  | verbose
  | noColor
  | help
  | version
  deriving DecidableEq, Repr

namespace Switch

def long : Switch → String
  | .verbose => "verbose"
  | .noColor => "no-color"
  | .help => "help"
  | .version => "version"

def short? : Switch → Option Char
  | .verbose => some 'v'
  | .noColor => none
  | .help => some 'h'
  | .version => some 'V'

def all : List Switch := [.verbose, .noColor, .help, .version]

def label (s : Switch) : String := "--" ++ s.long

end Switch

/-- Options with a value. -/
inductive Parameter where
  | config
  | format
  deriving DecidableEq, Repr

namespace Parameter

def long : Parameter → String
  | .config => "config"
  | .format => "format"

def short : Parameter → Char
  | .config => 'c'
  | .format => 'f'

def all : List Parameter := [.config, .format]

def label : Parameter → String
  | .config => "--config <CONFIG>"
  | .format => "--format <FORMAT>"

end Parameter

/-- What is wrong with the arguments or with what the environment says in
their place. -/
inductive ArgumentError where
  | unexpected (argument : String)
  | invalidValue (value label : String)
  | valueRequired (label : String)
  | repeated (label : String)
  /-- A value attached to a switch. -/
  | unexpectedValue (value label : String)
  deriving DecidableEq, Repr

namespace ArgumentError

def message : ArgumentError → String
  | .unexpected argument => "unexpected argument '" ++ Text.visible argument ++ "' found"
  | .invalidValue value label =>
    "invalid value '" ++ Text.visible value ++ "' for '" ++ label ++ "'"
  | .valueRequired label => "a value is required for '" ++ label ++ "' but none was supplied"
  | .repeated label => "the argument '" ++ label ++ "' cannot be used multiple times"
  | .unexpectedValue value label =>
    "unexpected value '" ++ Text.visible value ++ "' for '" ++ label ++
      "' found; no more were expected"

/-- A value that will not do. An empty one counts as none. -/
def ofValue (value label : String) : ArgumentError :=
  if value.isEmpty then .valueRequired label else .invalidValue value label

end ArgumentError

/-- Why arguments lead to no run. -/
inductive Refusal where
  | help (long : Bool)
  | version
  | mistake (error : ArgumentError)
  deriving DecidableEq, Repr

/-- What arguments ask for. -/
structure Request where
  scripts : List String := []
  verbose : Bool := false
  noColor : Bool := false
  config : Option String := none
  format : Option Format := none
  deriving DecidableEq, Repr

namespace Request

def scriptsLabel : String := "[SCRIPT]..."

def setSwitch (r : Request) (long : Bool) : Switch → Except Refusal Request
  | .verbose =>
    if r.verbose then .error (.mistake (.repeated Switch.verbose.label))
    else .ok { r with verbose := true }
  | .noColor =>
    if r.noColor then .error (.mistake (.repeated Switch.noColor.label))
    else .ok { r with noColor := true }
  | .help => .error (.help long)
  | .version => .error .version

def setParameter (r : Request) (value : String) (p : Parameter) : Except Refusal Request :=
  match p with
  | .config =>
    if r.config.isSome then .error (.mistake (.repeated p.label))
    else if value.isEmpty then .error (.mistake (.valueRequired p.label))
    else .ok { r with config := some value }
  | .format =>
    if r.format.isSome then .error (.mistake (.repeated p.label))
    else match Format.ofName? value with
      | some format => .ok { r with format := some format }
      | none => .error (.mistake (.ofValue value p.label))

def addScripts (r : Request) (scripts : List String) : Except Refusal Request :=
  if scripts.any (·.isEmpty) then .error (.mistake (.valueRequired scriptsLabel))
  else .ok { r with scripts := r.scripts ++ scripts }

end Request

/-- What has been read and has not taken effect. -/
inductive Pending where
  | nothing
  /-- An option, and its value once that was read. -/
  | parameter (p : Parameter) (value : Option String)
  /-- A row of scripts. -/
  | scripts (row : List String)
  deriving DecidableEq, Repr

/-- Arguments being read. -/
structure ArgumentState where
  request : Request := {}
  pending : Pending := .nothing
  /-- Whether only scripts may follow. -/
  onlyScripts : Bool := false
  deriving DecidableEq, Repr

namespace ArgumentState

/-- What is pending takes effect. -/
def settle (r : ArgumentState) : Except Refusal ArgumentState := do
  let request ← match r.pending with
    | .nothing => .ok r.request
    | .parameter p none => .error (.mistake (.valueRequired p.label))
    | .parameter p (some value) => r.request.setParameter value p
    | .scripts row => r.request.addScripts row
  return { r with request, pending := .nothing }

def takeSwitch (r : ArgumentState) (long : Bool) (s : Switch) : Except Refusal ArgumentState := do
  let r ← r.settle
  return { r with request := ← r.request.setSwitch long s }

/-- An option, with a value attached to it or one to come. -/
def takeParameter (r : ArgumentState) (value : Option String) (p : Parameter) :
    Except Refusal ArgumentState := do
  let r ← r.settle
  match value with
  | some value => return { r with request := ← r.request.setParameter value p }
  | none => return { r with pending := .parameter p none }

def takeScript (r : ArgumentState) (script : String) : Except Refusal ArgumentState := do
  match r.pending with
  | .scripts row => return { r with pending := .scripts (row ++ [script]) }
  | _ =>
    let r ← r.settle
    return { r with pending := .scripts [script] }

/-- An argument that starts with two dashes, given without them. -/
def takeLong (r : ArgumentState) (argument : List Char) : Except Refusal ArgumentState :=
  let name := String.ofList (argument.takeWhile (· ≠ '='))
  let value := match argument.dropWhile (· ≠ '=') with
    | [] => none
    | _ :: value => some (String.ofList value)
  match Switch.all.find? (·.long == name), value with
  | some s, none => r.takeSwitch true s
  | some s, some value => .error (.mistake (.unexpectedValue value s.label))
  | none, value =>
    match Parameter.all.find? (·.long == name) with
    | some p => r.takeParameter value p
    | none => .error (.mistake (.unexpected ("--" ++ name)))

/-- An argument that starts with one dash, given without it: switches by
letter, and perhaps an option with the rest as its value. -/
def takeShort (r : ArgumentState) : List Char → Except Refusal ArgumentState
  | [] => .ok r
  | c :: cs =>
    match Switch.all.find? (·.short? == some c) with
    | some s => do
      let r ← r.takeSwitch false s
      r.takeShort cs
    | none =>
      match Parameter.all.find? (·.short == c) with
      | some p =>
        let value := match cs with
          | [] => none
          | '=' :: value => some (String.ofList value)
          | value => some (String.ofList value)
        r.takeParameter value p
      | none => .error (.mistake (.unexpected (String.ofList ['-', c])))

/-- An argument that is no option: the value that an option waits for, or
a script. -/
def takePlain (r : ArgumentState) (argument : String) : Except Refusal ArgumentState :=
  match r.pending with
  | .parameter p none => .ok { r with pending := .parameter p (some argument) }
  | _ => r.takeScript argument

def take (r : ArgumentState) (argument : String) : Except Refusal ArgumentState :=
  if r.onlyScripts then r.takeScript argument
  else match argument.toList with
    | ['-', '-'] => .ok { r with onlyScripts := true }
    | '-' :: '-' :: rest => r.takeLong rest
    | '-' :: c :: rest => r.takeShort (c :: rest)
    | _ => r.takePlain argument

end ArgumentState

/-- What arguments ask for by themselves. -/
def Request.ofArguments (arguments : List String) : Except Refusal Request := do
  let reading ← arguments.foldlM ArgumentState.take {}
  return (← reading.settle).request

namespace Environment

def flag (env : Environment) (variableName : String) (s : Switch) : Except Refusal Bool :=
  match env.get? variableName with
  | none => .ok false
  | some "true" => .ok true
  | some "false" => .ok false
  | some value => .error (.mistake (.ofValue value s.label))

end Environment

/-- The variables that stand in for arguments. -/
def verboseVariable : String := "LOXC_VERBOSE"

@[inherit_doc verboseVariable] def configVariable : String := "LOXC_CONFIG"

@[inherit_doc verboseVariable] def noColorVariable : String := "LOXC_NO_COLOR"

namespace Request

/-- The request with the environment standing in for what no argument
gives. -/
def complete (r : Request) (env : Environment) : Except Refusal Request := do
  let verbose ← if r.verbose then .ok true else env.flag verboseVariable .verbose
  let config ← match r.config, env.get? configVariable with
    | none, some value =>
      if value.isEmpty then .error (.mistake (.valueRequired Parameter.config.label))
      else .ok (some value)
    | config, _ => .ok config
  let noColor ← if r.noColor then .ok true else env.flag noColorVariable .noColor
  return { r with verbose, config, noColor }

/-- What arguments and the environment ask for. -/
def parse (env : Environment) (arguments : List String) : Except Refusal Request := do
  let request ← ofArguments arguments
  request.complete env

end Request

end LoxScan

import LoxScan.Config.Document
import LoxScan.Config.Environment
import LoxScan.Disk.Access
import LoxScan.Failure

/-!
# Finding, loading and saving configurations

A configuration is looked for in the working directory, below the home
directory and in the user's configuration directory, in this order, and
the first file found is the one that counts, even if it cannot be read.
Where there is none, all settings have their defaults.
-/

namespace LoxScan

def PromptSettings.historyPath (s : PromptSettings) (env : Environment) : String :=
  if Path.isAbsolute s.historyFile then s.historyFile
  else Path.join (Path.join (env.dataDirectory?.getD ".") "loxc") s.historyFile

namespace Config

def fileName : String := "loxc.toml"

/-- The places where a configuration file is looked for, in order. -/
def places (env : Environment) : List String :=
  let inDirectory (directory : String) := Path.join (Path.join directory "loxc") fileName
  fileName ::
    ((env.home?.map fun home => inDirectory (Path.join home ".config")).toList ++
      (env.configDirectory?.map inDirectory).toList)

variable {m : Type → Type} [Monad m] [MonadDisk m]

/-- The first of some paths that leads anywhere. -/
def firstPresent : List String → m (Option String)
  | [] => return none
  | path :: paths => do
    if ← MonadDisk.hasPath path then return some path else firstPresent paths

def loadFrom (path : String) : m (Except Failure Config) := do
  if ← MonadDisk.hasPath path then
    match ← MonadDisk.readText path with
    | .error cause => return .error (.disk cause)
    | .ok text =>
      match ofText path text with
      | .error fault => return .error (.config fault)
      | .ok config => return .ok config
  else return .error (.config (.notFound path))

/-- The configuration in the file at a path, or else in the first file
found where one is looked for. -/
def load (env : Environment) (path : Option String) : m (Except Failure Config) := do
  match path with
  | some path => loadFrom path
  | none =>
    match ← firstPresent (places env) with
    | some path => loadFrom path
    | none => return .ok {}

/-- Puts a configuration into the file at a path. The directories above
the file are made first; they stay if nothing can be saved. -/
def saveTo (c : Config) (path : String) : m (Except Failure Unit) := do
  let made ← match Path.parent? path with
    | some directory => MonadDisk.makeDirectories directory
    | none => pure (.ok ())
  match made, c.toText with
  | .error cause, _ => return .error (.disk cause)
  | .ok (), .error fault => return .error (.config fault)
  | .ok (), .ok text =>
    match ← MonadDisk.write path text with
    | .error cause => return .error (.disk cause)
    | .ok () => return .ok ()

end Config

end LoxScan

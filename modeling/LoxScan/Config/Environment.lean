import LoxScan.Disk.Path

/-!
# The user's directories

Environment variables say where a user keeps things. A home directory is
taken as it is given; the directories for configuration and data count
only if they are absolute, and stand below the home directory otherwise.
-/

namespace LoxScan

structure Environment where
  bindings : List (String × String)
  /-- The home directory of the user's account, for when no variable
  names one. -/
  accountHome : Option String
  deriving DecidableEq, Repr

namespace Environment

def get? (env : Environment) (name : String) : Option String := env.bindings.lookup name

/-- The value of a variable, if it has one that fits. -/
def getIf? (env : Environment) (fits : String → Bool) (name : String) : Option String :=
  (env.get? name).filter fits

def home? (env : Environment) : Option String :=
  (env.getIf? (!·.isEmpty) "HOME").or env.accountHome

def configDirectory? (env : Environment) : Option String :=
  (env.getIf? Path.isAbsolute "XDG_CONFIG_HOME").or
    (env.home?.map (Path.join · ".config"))

def dataDirectory? (env : Environment) : Option String :=
  (env.getIf? Path.isAbsolute "XDG_DATA_HOME").or
    (env.home?.map (Path.join · ".local/share"))

end Environment

end LoxScan

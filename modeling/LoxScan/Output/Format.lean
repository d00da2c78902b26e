/-!
# Output formats

Tokens are written in one of two formats, each with a name by which
settings and arguments ask for it.
-/

namespace LoxScan

inductive Format where
  /-- One `KIND lexeme literal` line per token. -/
  | text
  /-- One JSON object per line per token. -/
  | json
  deriving DecidableEq, Repr

namespace Format

def name : Format → String
  | .text => "text"
  | .json => "json"

def logName : Format → String
  | .text => "Text"
  | .json => "Json"

def description : Format → String
  | .text => "One `KIND lexeme literal` line per token"
  | .json => "One JSON object per line per token"

def all : List Format := [.text, .json]

/-- The format of a name; names are exact. -/
def ofName? (name : String) : Option Format := all.find? (·.name == name)

theorem ofName?_name (f : Format) : ofName? f.name = some f := by cases f <;> decide

end Format

end LoxScan

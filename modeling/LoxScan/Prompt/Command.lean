import LoxScan.Text.Blank

/-!
# Commands of the prompt

A line is a command if it is a point and the exact name of one, with an
argument or without. Blanks around the line and around the argument do
not count; a blank must stand between the two. Any other line is source
text.
-/

namespace LoxScan

inductive PromptCommand where
  | help
  | exit
  | clear
  | version
  | load
  deriving DecidableEq, Repr

namespace PromptCommand

/-- The name, which a point goes before. -/
def name : PromptCommand → List Char
  | .help => "help".toList
  | .exit => "exit".toList
  | .clear => "clear".toList
  | .version => "version".toList
  | .load => "load".toList

def usage : PromptCommand → String
  | .help => ".help"
  | .exit => ".exit"
  | .clear => ".clear"
  | .version => ".version"
  | .load => ".load <file>"

def description : PromptCommand → String
  | .help => "Show this help message"
  | .exit => "Exit the prompt (or press Ctrl-D)"
  | .clear => "Clear the screen"
  | .version => "Show version information"
  | .load => "Scan a script file"

/-- All commands, as the help lists them. -/
def all : List PromptCommand := [.help, .exit, .clear, .version, .load]

def ofName? (name : List Char) : Option PromptCommand := all.find? (·.name == name)

theorem ofName?_eq_some_iff {name : List Char} {command : PromptCommand} :
    ofName? name = some command ↔ name = command.name := by
  constructor
  · intro h
    have := List.find?_some h
    simpa using Eq.symm (by simpa using this : command.name = name)
  · rintro rfl
    cases command <;> decide

def parse (line : List Char) : Option (PromptCommand × Option (List Char)) :=
  match Text.trim line with
  | '.' :: rest =>
    let (word, behind) := Text.splitAtBlank rest
    let argument := (behind.map Text.trim).filter (!·.isEmpty)
    (ofName? word).map (·, argument)
  | _ => none

def padRight (width : Nat) (text : String) : String :=
  text ++ String.ofList (List.replicate (width - text.length) ' ')

def helpLines : List String :=
  "Prompt commands:" ::
    (all.map fun command => "  " ++ padRight 16 command.usage ++ " " ++ command.description) ++
    ["Anything else is scanned and its tokens printed."]

end PromptCommand

end LoxScan

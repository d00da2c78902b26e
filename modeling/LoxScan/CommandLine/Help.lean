import LoxScan.CommandLine.Arguments

/-!
# Help

The help describes each argument once and is laid out in two ways: short,
with a column of descriptions beside the arguments, and long, with each
description below its argument. A variable that stands in for an argument
is shown with its value; the lines of a value are indented like the
description they stand in.

Headings and the forms of the arguments are styled, what is between them
is not. A value is text from outside, so a terminal sequence that it opens
and does not finish takes in the text behind it, up to the next style.
-/

namespace LoxScan.Help

inductive Piece where
  | plain (text : String)
  /-- Text in a style of its own, which ends any sequence before it. -/
  | styled (text : String)
  deriving DecidableEq, Repr

/-- What is shown of pieces behind plain text. -/
def shownBehind (before : String) : List Piece → String
  | [] => Text.visible before
  | .plain text :: pieces => shownBehind (before ++ text) pieces
  | .styled text :: pieces => Text.visible before ++ text ++ shownBehind "" pieces

def shown (pieces : List Piece) : String := shownBehind "" pieces

/-- What the help says about an argument. -/
structure Item where
  /-- The columns before the argument. -/
  lead : Nat := 2
  /-- How the argument is written. -/
  form : String
  description : String
  /-- The variable that stands in for it. -/
  variableName : Option String := none
  /-- The values it takes, where there is a choice. -/
  choices : List Format := []

def scripts : Item :=
  { form := "[SCRIPT]..."
    description := "Script to scan (starts an interactive prompt when omitted)" }

/-- The options, as the help lists them; what is said of the help depends
on which of the two is being read. -/
def options (long : Bool) : List Item := [
  { form := "-v, --verbose"
    description := "Enable verbose output"
    variableName := some verboseVariable },
  { form := "-c, --config <CONFIG>"
    description := "Path to configuration file"
    variableName := some configVariable },
  { lead := 6
    form := "--no-color"
    description := "Disable color output"
    variableName := some noColorVariable },
  { form := "-f, --format <FORMAT>"
    description := "Token output format"
    choices := Format.all },
  { form := "-h, --help"
    description :=
      if long then "Print help (see a summary with '-h')"
      else "Print help (see more with '--help')" },
  { form := "-V, --version"
    description := "Print version" }]

def opening : List Piece :=
  [.plain "Scan Lox source and print its tokens\n\n", .styled "Usage:", .plain " ",
    .styled "loxc", .plain " [OPTIONS] [SCRIPT]...\n"]

def heading (title : String) : List Piece := [.plain "\n", .styled title, .plain "\n"]

def spaces (width : Nat) : String := String.ofList (List.replicate width ' ')

/-- A text whose lines after the first are indented. -/
def indent (width : Nat) (text : String) : String :=
  let lineBreak := '\n' :: List.replicate width ' '
  String.ofList (text.toList.flatMap fun c => if c = '\n' then lineBreak else [c])

def variableNote (env : Environment) (name : String) : String :=
  "[env: " ++ name ++ "=" ++ (env.get? name).getD "" ++ "]"

namespace Item

/-- The line of an argument that is given some columns. -/
def shortLine (env : Environment) (width : Nat) (item : Item) : List Piece :=
  let gap := spaces (width - (item.lead + item.form.length) + 2)
  let note := match item.variableName with
    | some name => " " ++ variableNote env name
    | none => ""
  let choices :=
    if item.choices.isEmpty then ""
    else " [possible values: " ++
      String.intercalate ", " (item.choices.map Format.name) ++ "]"
  [.plain (spaces item.lead), .styled item.form,
    .plain (gap ++ indent (width + 2) (item.description ++ note ++ choices) ++ "\n")]

/-- The columns before a description below its argument. -/
def margin : Nat := 10

/-- The lines of an argument with its description below. -/
def longLines (env : Environment) (item : Item) : List Piece :=
  let note := match item.variableName with
    | some name => "\n\n" ++ variableNote env name
    | none => ""
  let choice (f : Format) :=
    spaces margin ++ "- " ++ f.name ++ ": " ++ f.description ++ "\n"
  let choices :=
    if item.choices.isEmpty then ""
    else "\n" ++ spaces margin ++ "Possible values:\n" ++
      String.join (item.choices.map choice)
  [.plain (spaces item.lead), .styled item.form,
    .plain ("\n" ++ spaces margin ++ indent margin (item.description ++ note) ++ "\n" ++ choices)]

end Item

/-- The help with descriptions beside the arguments. -/
def shortPieces (env : Environment) : List Piece :=
  let width := scripts.lead + scripts.form.length
  opening ++ heading "Arguments:" ++ scripts.shortLine env width ++
    heading "Options:" ++ (options false).flatMap (Item.shortLine env 23)

/-- The help with descriptions below the arguments. -/
def longPieces (env : Environment) : List Piece :=
  opening ++ heading "Arguments:" ++ scripts.longLines env ++
    heading "Options:" ++ [.plain "\n"].intercalate ((options true).map (Item.longLines env))

def text (env : Environment) (long : Bool) : String :=
  shown (if long then longPieces env else shortPieces env)

end LoxScan.Help

import LoxScan.Config.Basic
import LoxScan.Config.Fault
import LoxScan.Toml.Document

/-!
# Configurations as TOML documents

Reading goes through the entries of the document in order and sets one
field for each key it knows, so of several values that do not fit the
first one is reported, and what no entry sets keeps its default. Writing
puts every field into the document.
-/

namespace LoxScan

open Toml (Value Entries)

def Toml.Value.toFlag : Value → Except ValueFault Bool
  | .boolean value => .ok value
  | v => .error (.wrongType v.found .boolean)

def Toml.Value.toText : Value → Except ValueFault String
  | .string text => .ok text
  | v => .error (.wrongType v.found .string)

def Toml.Value.toPath : Value → Except ValueFault String
  | .string text => .ok text
  | v => .error (.wrongType v.found .path)

/-- A count. Integers of a document are below 2⁶³, so none is too
large. -/
def Toml.Value.toCount : Value → Except ValueFault UInt64
  | .integer value =>
    if value < 0 then .error (.negative value) else .ok (UInt64.ofNat value.toNat)
  | v => .error (.wrongType v.found .count)

/-- That a value is an empty table, which is what may stand behind the
name of a format. -/
def Toml.Value.requireEmpty : Value → Except ValueFault Unit
  | .table _ entries => if entries.isEmpty then .ok () else .error .notEmptyTable
  | .array items => if items.isEmpty then .ok () else .error .notEmptyTable
  | .tables items => if items.isEmpty then .ok () else .error .notEmptyArray
  | .string _ => .error (.notTable "string")
  | .integer _ => .error (.notTable "integer")
  | .float _ => .error (.notTable "float")
  | .boolean _ => .error (.notTable "boolean")
  | .moment => .error (.notTable "datetime")

def Format.ofText (name : String) : Except ValueFault Format :=
  match Format.ofName? name with
  | some format => .ok format
  | none => .error (.unknownFormat name)

/-- A format: its name, or a table with its name as the only key. -/
def Toml.Value.toFormat : Value → Except ValueFault Format
  | .string name => Format.ofText name
  | .table _ [] => .error .noElement
  | .table _ [(name, value)] => do
    let format ← Format.ofText name
    value.requireEmpty
    return format
  | .table _ (_ :: _ :: _) => .error .manyElements
  | _ => .error .noFormat

namespace PromptSettings

/-- The keys, in the order in which a list gives their values. -/
def keys : List String := ["prompt", "history_file", "max_history"]

def set (s : PromptSettings) : String × Value → Except ValueFault PromptSettings
  | ("prompt", v) => do return { s with prompt := ← v.toText }
  | ("history_file", v) => do return { s with historyFile := ← v.toPath }
  | ("max_history", v) => do return { s with maxHistory := ← v.toCount }
  | _ => .ok s

def ofEntries (entries : Entries) : Except ValueFault PromptSettings :=
  entries.foldlM set {}

/-- The settings in a value: a table, or the values alone. A moment is a
table without any of the keys. -/
def ofValue : Value → Except ValueFault PromptSettings
  | .table _ entries => ofEntries entries
  | .array items => ofEntries (keys.zip items)
  | .tables items => ofEntries (keys.zip (items.map (.table .header)))
  | .moment => .ok {}
  | v => .error (.wrongType v.found .settings)

end PromptSettings

namespace Config

def set (c : Config) : String × Value → Except ValueFault Config
  | ("verbose", v) => do return { c with verbose := ← v.toFlag }
  | ("color", v) => do return { c with color := ← v.toFlag }
  | ("format", v) => do return { c with format := ← v.toFormat }
  | ("repl", v) => do return { c with repl := ← PromptSettings.ofValue v }
  | _ => .ok c

def ofEntries (entries : Entries) : Except ValueFault Config := entries.foldlM set {}

def ofText (path text : String) : Except ConfigFault Config :=
  match Toml.read? text with
  | none => .error (.malformed path)
  | some entries =>
    match ofEntries entries with
    | .ok config => .ok config
    | .error fault => .error (.badValue path fault)

/-- The largest count a document can hold. -/
def countLimit : Nat := 0x7FFFFFFFFFFFFFFF

def text (c : Config) : String :=
  String.ofList (
    "verbose = ".toList ++ (toString c.verbose).toList ++
    "\ncolor = ".toList ++ (toString c.color).toList ++
    "\nformat = ".toList ++ Toml.writeString c.format.name.toList ++
    "\n\n[repl]\nprompt = ".toList ++ Toml.writeString c.repl.prompt.toList ++
    "\nhistory_file = ".toList ++ Toml.writeString c.repl.historyFile.toList ++
    "\nmax_history = ".toList ++ (toString c.repl.maxHistory.toNat).toList ++ ['\n'])

/-- The document of a configuration, if its count can be held. -/
def toText (c : Config) : Except ConfigFault String :=
  if countLimit < c.repl.maxHistory.toNat then .error .countTooLarge else .ok c.text

end Config

end LoxScan

import LoxScan.Disk.Fault
import LoxScan.Text.Quoted
import LoxScan.Binary64.Text
import LoxScan.Toml.Value

/-!
# What is wrong with a configuration

A configuration fails to load for want of a file, because the file is no
TOML document, or because one of its values does not fit. The message
names what was found where a value has the wrong type, and what would
have fitted. What a parser says of a text that is no TOML is not part of
the message.
-/

namespace LoxScan

/-- What a value was to be. -/
inductive Expected where
  | boolean
  | string
  | path
  | count
  /-- The settings of the prompt. -/
  | settings
  deriving DecidableEq, Repr

def Expected.text : Expected → String
  | .boolean => "a boolean"
  | .string => "a string"
  | .path => "path string"
  | .count => "usize"
  | .settings => "struct ReplConfig"

/-- A value as a message names it. -/
def Toml.Value.found : Toml.Value → String
  | .string text => "string " ++ Text.Quoted.quote text
  | .integer value => "integer `" ++ toString value ++ "`"
  | .float value => "floating point `" ++ String.ofList value.plain ++ "`"
  | .boolean value => "boolean `" ++ toString value ++ "`"
  | .array _ | .tables _ => "sequence"
  | .moment | .table _ _ => "map"

/-- Why a value does not fit. -/
inductive ValueFault where
  | wrongType (found : String) (expected : Expected)
  /-- A count below zero. -/
  | negative (value : Int)
  | unknownFormat (name : String)
  /-- A format that is neither a string nor a table. -/
  | noFormat
  /-- A table for a format, without entries. -/
  | noElement
  /-- A table for a format, with more than one entry. -/
  | manyElements
  /-- A format whose value is a table or an array with something in it. -/
  | notEmptyTable
  /-- A format whose value is an array of tables. -/
  | notEmptyArray
  /-- A format with a plain value, of the named type. -/
  | notTable (type : String)
  deriving DecidableEq, Repr

def ValueFault.message : ValueFault → String
  | .wrongType found expected => "invalid type: " ++ found ++ ", expected " ++ expected.text
  | .negative value =>
    "invalid value: integer `" ++ toString value ++ "`, expected " ++ Expected.count.text
  | .unknownFormat name => "unknown variant `" ++ name ++ "`, expected `text` or `json`"
  | .noFormat => "wanted string or table"
  | .noElement => "wanted exactly 1 element, found 0 elements"
  | .manyElements => "wanted exactly 1 element, more than 1 element"
  | .notEmptyTable => "expected empty table"
  | .notEmptyArray => "expected empty array"
  | .notTable type => "expected table, found " ++ type

inductive ConfigFault where
  /-- The file asked for does not exist. -/
  | notFound (path : String)
  /-- The file is no TOML document. -/
  | malformed (path : String)
  /-- The file has a value that does not fit. -/
  | badValue (path : String) (fault : ValueFault)
  /-- A count is too large to be saved. -/
  | countTooLarge
  /-- A cause that is known only by its description. -/
  | other (description : String)
  deriving DecidableEq, Repr

def ConfigFault.message : ConfigFault → String
  | .notFound path => "Configuration file not found: " ++ path
  | .malformed path => "Failed to parse " ++ path
  | .badValue path fault => "Failed to parse " ++ path ++ ": " ++ fault.message
  | .countTooLarge => "Failed to serialize configuration: out-of-range value for u64 type"
  | .other description => description

end LoxScan

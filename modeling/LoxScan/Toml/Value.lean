import LoxScan.Binary64.Basic

/-!
# Values of a TOML document

A table keeps its entries in the order in which they were written, and
it remembers how it came to be, because that decides who may still add
to it:

- a table with a *header* of its own takes no second header, and dotted
  keys elsewhere do not reach into it;
- an *implied* table stands on the way to a header and may still get its
  own;
- a *dotted* table was made by dotted keys and only they extend it,
  subtables with headers apart;
- an *inline* table is complete as it stands.

`update` walks a path of keys through these rules and applies a change
at its end; the three ways a document adds to itself are three changes.
-/

namespace LoxScan.Toml

/-- How a table came to be. -/
inductive Origin where
  | header
  | implied
  | dotted
  | inline
  deriving DecidableEq, Repr

inductive Value where
  | string (text : String)
  | integer (value : Int)
  | float (value : Binary64)
  | boolean (value : Bool)
  /-- A date, a time, or both. -/
  | moment
  | array (items : List Value)
  /-- An array whose items are tables with headers. -/
  | tables (items : List (List (String × Value)))
  | table (origin : Origin) (entries : List (String × Value))
  deriving Repr, Inhabited

/-- The entries of a table, in the order in which they were written. -/
abbrev Entries := List (String × Value)

namespace Entries

def get? (es : Entries) (key : String) : Option Value := es.lookup key

def add (es : Entries) (key : String) (v : Value) : Entries := es ++ [(key, v)]

def remove (es : Entries) (key : String) : Entries := es.filter (·.1 ≠ key)

/-- The entries with another value for a key, in the same place. -/
def replace (es : Entries) (key : String) (v : Value) : Entries :=
  es.map fun entry => if entry.1 = key then (key, v) else entry

/-- A change to a table of some origin, which may be refused. -/
abbrev Change := Origin → Entries → Option Entries

/-- The change applied to the table at the end of a path. Tables that
are missing on the way are made, dotted or implied as the path is. -/
def update (dotted : Bool) (change : Change) : List String → Change
  | [], origin, es => change origin es
  | key :: path, _, es =>
    let fresh := if dotted then Origin.dotted else Origin.implied
    match es.get? key with
    | none => do
      let below ← update dotted change path fresh []
      return es.add key (.table fresh below)
    | some (.table origin below) =>
      if origin = .inline ∨ (dotted ∧ origin = .header) then none
      else do
        let below ← update dotted change path origin below
        return es.replace key (.table origin below)
    | some (.tables items) => do
      let last ← items.getLast?
      let below ← update dotted change path .header last
      return es.replace key (.tables (items.dropLast ++ [below]))
    | some _ => none

/-- A new key with its value. At the end of a dotted path the table has
to be a dotted one. -/
def assign (path : List String) (key : String) (v : Value) : Change :=
  update true (fun origin es =>
    if (path ≠ [] ∧ origin ≠ .dotted) ∨ (es.get? key).isSome then none
    else some (es.add key v)) path

/-- A table gets its header. One implied before moves to where its
header stands. -/
def openTable (path : List String) (key : String) : Change :=
  update false (fun _ es =>
    match es.get? key with
    | none => some (es.add key (.table .header []))
    | some (.table .implied below) => some ((es.remove key).add key (.table .header below))
    | some _ => none) path

/-- An array of tables gets one more item. -/
def openItem (path : List String) (key : String) : Change :=
  update false (fun _ es =>
    match es.get? key with
    | none => some (es.add key (.tables [[]]))
    | some (.tables items) => some (es.replace key (.tables (items ++ [[]])))
    | some _ => none) path

end Entries

end LoxScan.Toml

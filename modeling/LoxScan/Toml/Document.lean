import LoxScan.Toml.Numbers
import LoxScan.Toml.Strings

/-!
# Reading a TOML document

A document is a row of statements, each on lines of its own: a key and
its value, the header of a table, or the header of an item of an array
of tables. Each statement is read and applied to the tables built so far
in one step, so a document is refused at its first statement that is
malformed or clashes with an earlier one.

Values nest, and the depth to which they may is the argument on which
`readValue?` recurses. The loops over items, keys and statements run on a
bound that the length of the text gives, since every round reads at least
one character.
-/

namespace LoxScan.Toml

/-- Arrays and inline tables inside each other, and keys in one dotted
key, are fewer than this. -/
def nestingLimit : Nat := 80

def skipIndent (cs : List Char) : List Char := cs.dropWhile isIndent

/-- A text without the blanks, line breaks and comments at its start. -/
def skipTrivia (inComment : Bool) : List Char → List Char
  | [] => []
  | c :: cs =>
    if startsBreak c cs then skipTrivia (inComment && c == '\r') cs
    else if inComment then
      if isShown c then skipTrivia true cs else c :: cs
    else if isIndent c then skipTrivia false cs
    else if c = '#' then skipTrivia true cs
    else c :: cs

/-- The end of a line: a line break or the end of the text. -/
def lineBreak? : List Char → Option (List Char)
  | [] => some []
  | '\n' :: cs => some cs
  | '\r' :: '\n' :: cs => some cs
  | _ => none

/-- What may stand behind a statement on its line: blanks and a
comment. -/
def lineEnd? (cs : List Char) : Option (List Char) :=
  match skipIndent cs with
  | '#' :: cs => lineBreak? (cs.dropWhile isShown)
  | cs => lineBreak? cs

/-- The characters of a key without quotes. -/
def isBareKeyPart (c : Char) : Bool :=
  isDecimalDigit c || ('a' ≤ c && c ≤ 'z') || ('A' ≤ c && c ≤ 'Z') || c == '_' || c == '-'

/-- One key, bare or quoted. -/
def readKey? (cs : List Char) : Option (String × List Char) :=
  match readLineString? cs with
  | some (key, rest) => some (String.ofList key, rest)
  | none =>
    let key := cs.takeWhile isBareKeyPart
    if key.isEmpty then none else some (String.ofList key, cs.dropWhile isBareKeyPart)

/-- Keys with points between them, and blanks around each. -/
def readKeysFrom? : Nat → List Char → Option (List String × List Char)
  | 0, _ => none
  | bound + 1, cs => do
    let (key, rest) ← readKey? (skipIndent cs)
    match skipIndent rest with
    | '.' :: rest => do
      let (keys, rest) ← readKeysFrom? bound rest
      return (key :: keys, rest)
    | rest => return ([key], rest)

/-- A dotted key: the keys before its last one, the last one, and what
follows. -/
def readPath? (cs : List Char) : Option (List String × String × List Char) := do
  let (keys, rest) ← readKeysFrom? (cs.length + 1) cs
  let last ← keys.getLast?
  if keys.length < nestingLimit then return (keys.dropLast, last, rest) else none

/-- A value that holds no other. -/
def readScalar? (cs : List Char) : Option (Value × List Char) :=
  match cs with
  | '"' :: _ | '\'' :: _ =>
    (readString? cs).map fun (text, rest) => (.string (String.ofList text), rest)
  | 't' :: 'r' :: 'u' :: 'e' :: rest => some (.boolean true, rest)
  | 'f' :: 'a' :: 'l' :: 's' :: 'e' :: rest => some (.boolean false, rest)
  | _ => readNumber? cs

/-- The items of an array, from behind its opening bracket. -/
def readItems? (value? : List Char → Option (Value × List Char)) :
    Nat → List Char → Option (List Value × List Char)
  | 0, _ => none
  | bound + 1, cs =>
    match skipTrivia false cs with
    | ']' :: rest => some ([], rest)
    | cs => do
      let (item, rest) ← value? cs
      match skipTrivia false rest with
      | ',' :: rest => do
        let (items, rest) ← readItems? value? bound rest
        return (item :: items, rest)
      | ']' :: rest => return ([item], rest)
      | _ => none

/-- The entries of an inline table, from its first key on, added to those
before. -/
def readEntries? (value? : List Char → Option (Value × List Char)) :
    Nat → Entries → List Char → Option (Entries × List Char)
  | 0, _, _ => none
  | bound + 1, es, cs => do
    let (path, key, rest) ← readPath? cs
    let rest ← expect? '=' rest
    let (value, rest) ← value? (skipIndent rest)
    let es ← Entries.assign path key value .inline es
    match skipIndent rest with
    | ',' :: rest => readEntries? value? bound es rest
    | '}' :: rest => return (es, rest)
    | _ => none

/-- A value in which others nest to a depth. -/
def readValue? : Nat → List Char → Option (Value × List Char)
  | depth + 1, '[' :: cs =>
    (readItems? (readValue? depth) (cs.length + 1) cs).map fun (items, rest) =>
      (.array items, rest)
  | depth + 1, '\x7b' :: cs =>
    match skipIndent cs with
    | '\x7d' :: rest => some (.table .inline [], rest)
    | cs =>
      (readEntries? (readValue? depth) (cs.length + 1) [] cs).map fun (es, rest) =>
        (.table .inline es, rest)
  | _, cs => readScalar? cs

/-- A document being read: its tables, and where the keys of the next
statements go. -/
structure Reading where
  root : Entries
  /-- The path of the table opened last. -/
  current : List String

namespace Reading

/-- A key and its value, put into the current table. -/
def assign (r : Reading) (path : List String) (key : String) (v : Value) : Option Reading := do
  let root ← Entries.update false (Entries.assign path key v) r.current .header r.root
  return { r with root }

/-- The header of a table. -/
def openTable (r : Reading) (path : List String) (key : String) : Option Reading := do
  let root ← Entries.openTable path key .header r.root
  return { root, current := path ++ [key] }

/-- The header of an item of an array of tables. -/
def openItem (r : Reading) (path : List String) (key : String) : Option Reading := do
  let root ← Entries.openItem path key .header r.root
  return { root, current := path ++ [key] }

/-- One statement, a comment, or an empty line. -/
def statement (r : Reading) (cs : List Char) : Option (Reading × List Char) :=
  match cs with
  | '#' :: _ | '\n' :: _ | '\r' :: _ => (lineEnd? cs).map (r, ·)
  | '[' :: '[' :: cs => do
    let (path, key, rest) ← readPath? cs
    let rest ← expect? ']' rest
    let rest ← expect? ']' rest
    let rest ← lineEnd? rest
    return (← r.openItem path key, rest)
  | '[' :: cs => do
    let (path, key, rest) ← readPath? cs
    let rest ← expect? ']' rest
    let rest ← lineEnd? rest
    return (← r.openTable path key, rest)
  | cs => do
    let (path, key, rest) ← readPath? cs
    let rest ← expect? '=' rest
    let (value, rest) ← readValue? (nestingLimit - 1) (skipIndent rest)
    let rest ← lineEnd? rest
    return (← r.assign path key value, rest)

def statements : Nat → Reading → List Char → Option Entries
  | 0, _, _ => none
  | bound + 1, r, cs =>
    match skipIndent cs with
    | [] => some r.root
    | cs => do
      let (r, rest) ← r.statement cs
      statements bound r rest

end Reading

/-- The top table of a document, if the text is one. A byte order mark
at its start is skipped. -/
def read? (text : String) : Option Entries :=
  let cs := match text.toList with
    | '\uFEFF' :: cs => cs
    | cs => cs
  Reading.statements (cs.length + 1) { root := [], current := [] } cs

end LoxScan.Toml

import LoxScan.Text.Json

/-!
# A reader of JSON

The other side of quoting: a reader of JSON texts as the format defines
them, white space, escapes, surrogate pairs, numbers and nesting
included. It knows nothing of what this library writes.

A step gives what it has read and the text behind it, and there is no
answer if the text does not go on as the format asks. Names and strings
are read in two steps, first into numbers, which are characters or the
halves of one (`units?`), and then these into characters
(`characters?`). Nesting is bounded by the length of the whole text,
which no text exceeds.
-/

namespace LoxScan.Text.Json

/-- A number, as the decimal that is written: `± significand · 10 ^ exponent`. -/
structure Number where
  negative : Bool
  significand : Nat
  exponent : Int
  deriving DecidableEq, Repr

/-- What a JSON text stands for. The members of an object are in order. -/
inductive Value where
  | null
  | boolean (b : Bool)
  | number (n : Number)
  | string (text : String)
  | array (items : List Value)
  | object (members : List (String × Value))

/-- Behind white space. -/
def skip (cs : List Char) : List Char :=
  cs.dropWhile fun c => c == ' ' || c == '\t' || c == '\n' || c == '\r'

/-! ## Strings -/

def hexDigit? (c : Char) : Option Nat :=
  if c.isDigit then some (c.toNat - '0'.toNat)
  else if 'a' ≤ c ∧ c ≤ 'f' then some (c.toNat - 'a'.toNat + 10)
  else if 'A' ≤ c ∧ c ≤ 'F' then some (c.toNat - 'A'.toNat + 10)
  else none

def hex? (cs : List Char) : Option Nat :=
  cs.foldlM (fun n c => (hexDigit? c).map (16 * n + ·)) 0

/-- What a backslash and one more character stand for. -/
def unescape? (c : Char) : Option Char :=
  if c = '"' ∨ c = '\\' ∨ c = '/' then some c
  else if c = 'b' then some '\x08'
  else if c = 'f' then some '\x0c'
  else if c = 'n' then some '\n'
  else if c = 'r' then some '\r'
  else if c = 't' then some '\t'
  else none

/-- The numbers of a string up to its closing quote. A control character
must be escaped. -/
def units? : List Char → Option (List Nat × List Char)
  | [] => none
  | '"' :: cs => some ([], cs)
  | '\\' :: 'u' :: a :: b :: c :: d :: cs => do
    let n ← hex? [a, b, c, d]
    let (ns, rest) ← units? cs
    return (n :: ns, rest)
  | '\\' :: c :: cs => do
    let c ← unescape? c
    let (ns, rest) ← units? cs
    return (c.toNat :: ns, rest)
  | c :: cs =>
    if c.toNat < 0x20 then none
    else do
      let (ns, rest) ← units? cs
      return (c.toNat :: ns, rest)

/-- The characters that numbers stand for, a high and a low half
together. A half alone is nothing. -/
def characters? : List Nat → Option (List Char)
  | [] => some []
  | n :: ns =>
    if n < 0xD800 ∨ 0xE000 ≤ n then (characters? ns).map (Char.ofNat n :: ·)
    else match ns with
      | [] => none
      | m :: ms =>
        if n < 0xDC00 ∧ 0xDC00 ≤ m ∧ m < 0xE000 then
          (characters? ms).map
            (Char.ofNat (0x10000 + (n - 0xD800) * 0x400 + (m - 0xDC00)) :: ·)
        else none

/-- A string behind its opening quote. -/
def string? (cs : List Char) : Option (String × List Char) := do
  let (ns, rest) ← units? cs
  let text ← characters? ns
  return (String.ofList text, rest)

/-! ## Numbers -/

/-- One digit or more. -/
def digits? (cs : List Char) : Option (List Char × List Char) :=
  if cs.takeWhile Char.isDigit = [] then none
  else some (cs.takeWhile Char.isDigit, cs.dropWhile Char.isDigit)

/-- The digits behind a point, if there is a point. -/
def fraction? : List Char → Option (List Char × List Char)
  | '.' :: cs => digits? cs
  | cs => some ([], cs)

/-- The number behind the mark of an exponent. -/
def power? : List Char → Option (Int × List Char)
  | '-' :: cs => (digits? cs).map fun (ds, rest) => (-(Nat.ofDigitChars 10 ds 0 : Int), rest)
  | '+' :: cs => (digits? cs).map fun (ds, rest) => ((Nat.ofDigitChars 10 ds 0 : Int), rest)
  | cs => (digits? cs).map fun (ds, rest) => ((Nat.ofDigitChars 10 ds 0 : Int), rest)

/-- An exponent, zero if there is none. -/
def exponent? : List Char → Option (Int × List Char)
  | 'e' :: cs => power? cs
  | 'E' :: cs => power? cs
  | cs => some (0, cs)

/-- A number without a sign. No zero stands in front of other digits. -/
def unsigned? (negative : Bool) (cs : List Char) : Option (Number × List Char) := do
  let (whole, rest) ← digits? cs
  if whole.head? = some '0' ∧ whole ≠ ['0'] then none
  else
    let (fraction, rest) ← fraction? rest
    let (exponent, rest) ← exponent? rest
    return (
      { negative
        significand := Nat.ofDigitChars 10 (whole ++ fraction) 0
        exponent := exponent - fraction.length },
      rest)

def number? : List Char → Option (Number × List Char)
  | '-' :: cs => unsigned? true cs
  | cs => unsigned? false cs

/-! ## Values -/

section

variable {α : Type} (item? : List Char → Option (α × List Char)) (close : Char)

/-- Items with commas between them, and what closes them. -/
def items? : Nat → List Char → Option (List α × List Char)
  | 0, _ => none
  | n + 1, cs => do
    let (item, rest) ← item? cs
    match skip rest with
    | [] => none
    | c :: rest =>
      if c = close then some ([item], rest)
      else if c = ',' then do
        let (items, rest) ← items? n rest
        return (item :: items, rest)
      else none

/-- Any number of items behind what opens them. -/
def list? (cs : List Char) : Option (List α × List Char) :=
  match skip cs with
  | [] => none
  | c :: rest => if c = close then some ([], rest) else items? item? close cs.length cs

end

/-- A name, a colon and a value. -/
def member? (value? : List Char → Option (Value × List Char)) (cs : List Char) :
    Option ((String × Value) × List Char) :=
  match skip cs with
  | '"' :: cs => do
    let (name, rest) ← string? cs
    match skip rest with
    | ':' :: cs => do
      let (value, rest) ← value? cs
      return ((name, value), rest)
    | _ => none
  | _ => none

/-- A value that is nested less deep than `depth`. -/
def value? : Nat → List Char → Option (Value × List Char)
  | 0, _ => none
  | depth + 1, cs =>
    match skip cs with
    | 'n' :: 'u' :: 'l' :: 'l' :: cs => some (.null, cs)
    | 't' :: 'r' :: 'u' :: 'e' :: cs => some (.boolean true, cs)
    | 'f' :: 'a' :: 'l' :: 's' :: 'e' :: cs => some (.boolean false, cs)
    | '"' :: cs => (string? cs).map fun (text, rest) => (.string text, rest)
    | '[' :: cs => (list? (value? depth) ']' cs).map fun (items, rest) => (.array items, rest)
    | '{' :: cs =>
      (list? (member? (value? depth)) '}' cs).map fun (members, rest) => (.object members, rest)
    | cs => (number? cs).map fun (n, rest) => (.number n, rest)

/-- The value of a whole text. -/
def read? (cs : List Char) : Option Value :=
  match value? (cs.length + 1) cs with
  | some (value, rest) => if skip rest = [] then some value else none
  | none => none

example : read? " [1, -2.50e+3 ,\"\\u00e9\\ud83d\\ude00\"]\n".toList =
    some (.array [.number ⟨false, 1, 0⟩, .number ⟨true, 250, 1⟩, .string "é😀"]) := by
  cbv

end LoxScan.Text.Json

import LoxScan.Toml.Value

/-!
# Numbers, dates and times in a TOML document

Such a value is a run of characters without blanks, so it is cut off
first and then recognised as a whole: as a moment, a float or an integer,
whichever it is. Underscores may stand between two digits and mean
nothing.
-/

namespace LoxScan.Toml

def isDecimalDigit (c : Char) : Bool := '0' ≤ c && c ≤ '9'

def isHexDigit (c : Char) : Bool :=
  isDecimalDigit c || ('a' ≤ c && c ≤ 'f') || ('A' ≤ c && c ≤ 'F')

/-- The characters that may stand in a number or a moment. -/
def isNumberPart (c : Char) : Bool :=
  isDecimalDigit c || ('a' ≤ c && c ≤ 'z') || ('A' ≤ c && c ≤ 'Z') ||
    c == '_' || c == '+' || c == '-' || c == '.' || c == ':'

/-- The digits of a run in which single underscores may stand between
two of them. -/
def ungroup (isDigit : Char → Bool) : List Char → Option (List Char)
  | [] => none
  | [c] => if isDigit c then some [c] else none
  | c :: '_' :: cs => if isDigit c then (ungroup isDigit cs).map (c :: ·) else none
  | c :: cs => if isDigit c then (ungroup isDigit cs).map (c :: ·) else none

/-- The value of a digit below sixteen. -/
def digitValue (c : Char) : Nat :=
  if c ≤ '9' then c.toNat - '0'.toNat
  else if c ≤ 'F' then c.toNat - 'A'.toNat + 10
  else c.toNat - 'a'.toNat + 10

def baseValue (base : Nat) (ds : List Char) : Nat :=
  ds.foldl (fun n c => base * n + digitValue c) 0

/-- A sign and what follows it: whether it is a minus. -/
def cutSign : List Char → Bool × List Char
  | '-' :: cs => (true, cs)
  | '+' :: cs => (false, cs)
  | cs => (false, cs)

/-- The digits of a decimal integer without its sign. A leading zero
stands alone. -/
def decimalDigits? (cs : List Char) : Option (List Char) :=
  match cs with
  | '0' :: _ :: _ => none
  | _ => ungroup isDecimalDigit cs

/-- Integers are those of 64 bits. -/
def inRange (i : Int) : Bool := -0x8000000000000000 ≤ i && i < 0x8000000000000000

/-- An integer from a sign and digits, if it is in range. -/
def integerOf? (negative : Bool) (n : Nat) : Option Value :=
  let i : Int := if negative then -(n : Int) else n
  if inRange i then some (.integer i) else none

/-- An integer in one of the four bases. -/
def readInteger? (cs : List Char) : Option Value :=
  match cs with
  | '0' :: 'x' :: ds => (ungroup isHexDigit ds).bind fun ds => integerOf? false (baseValue 16 ds)
  | '0' :: 'o' :: ds =>
    (ungroup (fun c => '0' ≤ c && c ≤ '7') ds).bind fun ds => integerOf? false (baseValue 8 ds)
  | '0' :: 'b' :: ds =>
    (ungroup (fun c => c == '0' || c == '1') ds).bind fun ds => integerOf? false (baseValue 2 ds)
  | _ =>
    let (negative, ds) := cutSign cs
    (decimalDigits? ds).bind fun ds => integerOf? negative (baseValue 10 ds)

/-- An exponent with its mark, if there is one: zero without it. -/
def exponent? : List Char → Option Int
  | [] => some 0
  | c :: cs =>
    if c = 'e' ∨ c = 'E' then
      let (negative, ds) := cutSign cs
      (ungroup isDecimalDigit ds).map fun ds =>
        let n : Int := baseValue 10 ds
        if negative then -n else n
    else none

/-- A float. A positive number beyond the range of the format is no
float. -/
def readFloat? (cs : List Char) : Option Value := do
  let (negative, body) := cutSign cs
  let signed (x : Binary64) : Binary64 := if negative then x.neg else x
  if body = ['i', 'n', 'f'] then return .float (signed Binary64.infinity)
  if body = ['n', 'a', 'n'] then return .float (signed ⟨0x7FF8000000000000⟩)
  let isMark (c : Char) := c == '.' || c == 'e' || c == 'E'
  let whole ← decimalDigits? (body.takeWhile (!isMark ·))
  let (fraction, tail) ←
    match body.dropWhile (!isMark ·) with
    | '.' :: rest => do
      let fraction ← ungroup isDecimalDigit (rest.takeWhile (!isMark ·))
      some (fraction, rest.dropWhile (!isMark ·))
    | [] => none
    | rest => some ([], rest)
  let e ← exponent? tail
  let value := signed (Binary64.ofScaled (baseValue 10 (whole ++ fraction)) (e - fraction.length))
  if value = Binary64.infinity then none else return .float value

def twoDigits? : List Char → Option (Nat × List Char)
  | a :: b :: cs =>
    if isDecimalDigit a ∧ isDecimalDigit b then some (baseValue 10 [a, b], cs) else none
  | _ => none

def expect? (c : Char) : List Char → Option (List Char)
  | d :: cs => if c = d then some cs else none
  | [] => none

def daysIn (year month : Nat) : Nat :=
  if month = 2 then
    if year % 4 = 0 ∧ (year % 100 ≠ 0 ∨ year % 400 = 0) then 29 else 28
  else if month = 4 ∨ month = 6 ∨ month = 9 ∨ month = 11 then 30
  else 31

def readDate? (cs : List Char) : Option (List Char) := do
  let (century, cs) ← twoDigits? cs
  let (years, cs) ← twoDigits? cs
  let cs ← expect? '-' cs
  let (month, cs) ← twoDigits? cs
  let cs ← expect? '-' cs
  let (day, cs) ← twoDigits? cs
  let year := 100 * century + years
  if 1 ≤ month ∧ month ≤ 12 ∧ 1 ≤ day ∧ day ≤ daysIn year month then some cs else none

/-- Hours and minutes; what follows them. -/
def readClock? (cs : List Char) : Option (List Char) := do
  let (hour, cs) ← twoDigits? cs
  let cs ← expect? ':' cs
  let (minute, cs) ← twoDigits? cs
  if hour < 24 ∧ minute < 60 then some cs else none

def readTime? (cs : List Char) : Option (List Char) := do
  let cs ← readClock? cs
  let cs ← expect? ':' cs
  let (second, cs) ← twoDigits? cs
  if 60 < second then none
  else match cs with
    | '.' :: fraction =>
      if (fraction.takeWhile isDecimalDigit).isEmpty then none
      else some (fraction.dropWhile isDecimalDigit)
    | _ => some cs

/-- Whether a text is an offset from universal time, or nothing. -/
def isOffset : List Char → Bool
  | [] => true
  | [c] => c == 'Z' || c == 'z'
  | c :: cs => (c == '+' || c == '-') && readClock? cs == some []

/-- Whether a text is a time of day, with an offset where one may
stand. -/
def isTime (offset : Bool) (cs : List Char) : Bool :=
  match readTime? cs with
  | some rest => if offset then isOffset rest else rest.isEmpty
  | none => false

/-- A date, a time, or both; and what follows. A blank may stand between
the two, and then it is followed by a digit. -/
def readMoment? (run rest : List Char) : Option (Value × List Char) :=
  match readDate? run with
  | some [] =>
    match rest with
    | ' ' :: c :: cs =>
      if isDecimalDigit c then
        if isTime true ((c :: cs).takeWhile isNumberPart) then
          some (.moment, (c :: cs).dropWhile isNumberPart)
        else none
      else some (.moment, rest)
    | _ => some (.moment, rest)
  | some (mark :: time) =>
    if (mark = 'T' ∨ mark = 't') ∧ isTime true time then some (.moment, rest) else none
  | none => if isTime false run then some (.moment, rest) else none

/-- A number or a moment, and what follows it. -/
def readNumber? (cs : List Char) : Option (Value × List Char) :=
  let run := cs.takeWhile isNumberPart
  let rest := cs.dropWhile isNumberPart
  match readMoment? run rest with
  | some found => some found
  | none =>
    match readFloat? run with
    | some v => some (v, rest)
    | none => (readInteger? run).map (·, rest)

end LoxScan.Toml

import LoxScan.Disk.Fault
import LoxScan.Text.Cluster
import LoxScan.Text.Offset

/-!
# Lines typed into the prompt

Input arrives as bytes and is cut at line feeds; each line is decoded by
itself, so one that is no text spoils no earlier one. A backspace in a
line does what it does at a keyboard: it takes back what stands before it
and is not part of the line itself. What it takes back is a whole
cluster, an accent together with its letter.

The size of a cluster is kept in one byte. Of a cluster of 256 bytes or
more only what is above the last multiple of 256 is taken back, and there
is no line if that would split a character.
-/

namespace LoxScan.Prompt

/-- Bytes cut into lines, each with its line feed if it has one. -/
def cutLines : List UInt8 → List (List UInt8)
  | [] => []
  | b :: bs =>
    if b = 10 then [b] :: cutLines bs
    else match cutLines bs with
      | [] => [[b]]
      | line :: lines => (b :: line) :: lines

/-- A line without its line feed and one carriage return right before
that. -/
def stripEnd (cs : List Char) : List Char :=
  if cs.getLast? = some '\n' then
    let line := cs.dropLast
    if line.getLast? = some '\r' then line.dropLast else line
  else cs

/-- A line being typed. -/
structure Typed where
  /-- The characters that stand, the last one first. -/
  backwards : List Char := []
  /-- How many bytes each cluster that was typed and not taken back
  counts, the last one first. -/
  sizes : List UInt8 := []
  deriving DecidableEq, Repr

namespace Typed

def push (t : Typed) (cluster : List Char) : Typed :=
  { backwards := cluster.reverse ++ t.backwards
    sizes := UInt8.ofNat (Text.byteLength cluster) :: t.sizes }

/-- The last cluster is taken back, unless that splits a character. -/
def takeBack? (t : Typed) : Option Typed :=
  match t.sizes with
  | [] => some t
  | n :: sizes => do
    let backwards ← Text.dropBytes? n.toNat t.backwards
    return { backwards, sizes }

/-- A backspace or another cluster. -/
def enter? (t : Typed) (cluster : List Char) : Option Typed :=
  if cluster = ['\x08'] then t.takeBack? else some (t.push cluster)

end Typed

/-- A line with each backspace carried out. -/
def applyBackspaces? (cs : List Char) : Option (List Char) := do
  let typed ← (Text.clusters cs).foldlM Typed.enter? {}
  return typed.backwards.reverse

/-- The line that was meant, if no backspace splits a character. -/
def cleanLine? (line : String) : Option String := do
  let cs ← applyBackspaces? (stripEnd line.toList)
  return String.ofList cs

/-- The line that some bytes are, if they are text. -/
def readLine (bytes : List UInt8) : Except DiskFault String :=
  match String.fromUTF8? ⟨bytes.toArray⟩ with
  | some text => .ok text
  | none => .error .notUtf8

def inputLines (input : ByteArray) : List (Except DiskFault String) :=
  (cutLines input.data.toList).map readLine

end LoxScan.Prompt

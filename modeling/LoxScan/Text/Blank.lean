/-!
# White space

The characters with the Unicode property `White_Space`, and the two cuts
made with them: trimming a text at both ends and taking its first word.
Lox itself knows only four of these characters, so this class belongs to
the prompt and not to the scanner.
-/

namespace LoxScan.Text

/-- The property `White_Space`. -/
def isBlank (c : Char) : Bool :=
  let n := c.toNat
  (0x09 ≤ n && n ≤ 0x0D) || n == 0x20 || n == 0x85 || n == 0xA0 || n == 0x1680 ||
    (0x2000 ≤ n && n ≤ 0x200A) || n == 0x2028 || n == 0x2029 || n == 0x202F ||
    n == 0x205F || n == 0x3000

def trimLeft (cs : List Char) : List Char := cs.dropWhile isBlank

def trimRight (cs : List Char) : List Char := (cs.reverse.dropWhile isBlank).reverse

def trim (cs : List Char) : List Char := trimRight (trimLeft cs)

/-- A text cut at its first blank: the word before it, and what follows
the blank if there is one. -/
def splitAtBlank (cs : List Char) : List Char × Option (List Char) :=
  match cs.dropWhile (fun c => !isBlank c) with
  | [] => (cs, none)
  | _ :: rest => (cs.takeWhile (fun c => !isBlank c), some rest)

end LoxScan.Text

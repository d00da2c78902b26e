/-!
# Sets of characters as ranges

The properties of characters that a standard lists, and does not compute,
are tables of code point ranges in ascending order, both ends included.
-/

namespace LoxScan.Text

/-- A table of code point ranges, both ends included. -/
abbrev Ranges := List (Nat × Nat)

def Ranges.contains (table : Ranges) (c : Char) : Bool :=
  table.any fun (first, last) => first ≤ c.toNat && c.toNat ≤ last

end LoxScan.Text

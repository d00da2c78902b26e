/-!
# The lines of a text

A line feed ends a line, and one carriage return right before it belongs
to the line's end. What follows the last line feed is a line only if it
is not empty, so a text that ends in a line feed has no empty last line.
-/

namespace LoxScan.Text

/-- A line without one carriage return at its end. -/
def stripReturn (line : List Char) : List Char :=
  if line.getLast? = some '\r' then line.dropLast else line

/-- The lines of a text, without what ends them. -/
def lines (cs : List Char) : List (List Char) :=
  match _h : cs.dropWhile (· ≠ '\n') with
  | [] => if cs.isEmpty then [] else [cs]
  | _ :: rest => stripReturn (cs.takeWhile (· ≠ '\n')) :: lines rest
termination_by cs.length
decreasing_by
  have hle : (cs.dropWhile (· ≠ '\n')).length ≤ cs.length := (List.dropWhile_suffix _).length_le
  rw [_h, List.length_cons] at hle
  omega

end LoxScan.Text

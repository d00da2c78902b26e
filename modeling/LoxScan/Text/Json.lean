/-!
# Quoting for JSON

A quoted text escapes the quote, the backslash and every character below
U+0020; all others stand for themselves. So a quoted text never holds a
line break of its own, whatever it quotes.
-/

namespace LoxScan.Text.Json

/-- The four hexadecimal digits of a number below 2¹⁶. -/
def hex4 (n : Nat) : List Char :=
  [Nat.digitChar (n / 4096 % 16), Nat.digitChar (n / 256 % 16),
    Nat.digitChar (n / 16 % 16), Nat.digitChar (n % 16)]

def escape (c : Char) : List Char :=
  if c = '"' then ['\\', '"']
  else if c = '\\' then ['\\', '\\']
  else if 0x20 ≤ c.toNat then [c]
  else if c = '\x08' then ['\\', 'b']
  else if c = '\t' then ['\\', 't']
  else if c = '\n' then ['\\', 'n']
  else if c = '\x0c' then ['\\', 'f']
  else if c = '\r' then ['\\', 'r']
  else '\\' :: 'u' :: hex4 c.toNat

def quote (cs : List Char) : List Char := '"' :: (cs.flatMap escape ++ ['"'])

end LoxScan.Text.Json

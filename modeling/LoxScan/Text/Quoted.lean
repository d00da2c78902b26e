import LoxScan.Text.BreakClass
import LoxScan.Text.Unprintable

/-!
# Quoting for messages

A text is quoted so that all of it can be seen on one line: the quote
and the backslash are escaped, the common controls have names, and a
character that has no glyph or would bind to its neighbour is spelled by
its number.
-/

namespace LoxScan.Text.Quoted

/-- Signs that bind to the character before them and are seen also without
it: the halfwidth sound marks and the skin tones. -/
def standaloneTable : Ranges := [(0xFF9E, 0xFF9F), (0x1F3FB, 0x1F3FF)]

/-- Whether a mark would bind to the character before it. -/
def bindsBackwards (c : Char) : Bool :=
  0x7F < c.toNat && extendTable.contains c && !standaloneTable.contains c

def spellOut (c : Char) : List Char :=
  "\\u\x7b".toList ++ Nat.toDigits 16 c.toNat ++ ['}']

/-- A character inside quotes. An apostrophe is escaped only where
asked. -/
def escape (apostrophe : Bool) (c : Char) : List Char :=
  if c = '\x00' then ['\\', '0']
  else if c = '\t' then ['\\', 't']
  else if c = '\r' then ['\\', 'r']
  else if c = '\n' then ['\\', 'n']
  else if c = '\\' ∨ c = '"' then ['\\', c]
  else if c = '\'' ∧ apostrophe then ['\\', c]
  else if bindsBackwards c then spellOut c
  else if isPrintable c then [c]
  else spellOut c

def quote (text : String) : String :=
  String.ofList ('"' :: (text.toList.flatMap (escape false) ++ ['"']))

/-- A path in quotes, where the apostrophe is escaped as well. -/
def quotePath (path : String) : String :=
  String.ofList ('"' :: (path.toList.flatMap (escape true) ++ ['"']))

end LoxScan.Text.Quoted

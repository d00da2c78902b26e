import LoxScan.Binary64.Text
import LoxScan.Text.Json
import LoxScan.Token.Kind

/-!
# Tokens

A token is a kind, the exact text it was made from, the value of that
text if it is a literal, and the line its first character stands on. Two
renderings go with it: the line of a plain listing, which prints texts
as they are, and a JSON object, which quotes them.
-/

namespace LoxScan

inductive Literal where
  | number (value : Binary64)
  /-- The text between the quotes. -/
  | text (value : String)
  deriving DecidableEq, Repr

namespace Literal

/-- The value of a lexeme of this kind, if such lexemes have one. -/
def ofLexeme? : Kind → List Char → Option Literal
  | .number, lexeme => some (.number (Binary64.ofNumeral lexeme))
  | .string, lexeme => some (.text (String.ofList (lexeme.drop 1).dropLast))
  | _, _ => none

def listing : Literal → List Char
  | .number value => value.listing
  | .text value => value.toList

/-- The JSON form of a literal; a number that is not finite has none. -/
def json : Literal → List Char
  | .number value => value.json?.getD "null".toList
  | .text value => Text.Json.quote value.toList

/-- Equality of values: numbers compare as numbers, not as patterns. -/
def same : Literal → Literal → Bool
  | .number a, .number b => a.same b
  | .text a, .text b => a == b
  | _, _ => false

end Literal

structure Token where
  kind : Kind
  /-- The source text of the token. -/
  lexeme : String
  literal : Option Literal
  /-- The line of its first character. -/
  line : UInt32
  deriving DecidableEq, Repr

namespace Token

def eof (line : UInt32) : Token := { kind := .eof, lexeme := "", literal := none, line }

def isEof (t : Token) : Bool := t.kind == .eof

def ofLexeme (kind : Kind) (lexeme : List Char) (line : UInt32) : Token :=
  { kind, lexeme := String.ofList lexeme, literal := Literal.ofLexeme? kind lexeme, line }

/-- Equality of literals, where neither has a value included. -/
def sameLiteral (s t : Token) : Bool :=
  match s.literal, t.literal with
  | some a, some b => a.same b
  | none, none => true
  | _, _ => false

/-- Equality of tokens, their literals compared by value. -/
def same (s t : Token) : Bool :=
  s.kind == t.kind && s.lexeme == t.lexeme && s.sameLiteral t && s.line == t.line

/-- The record of a token in a plain listing: kind, lexeme and literal,
the lexeme and a text literal as they are. -/
def listing (t : Token) : String :=
  let literal := match t.literal with
    | some l => l.listing
    | none => "null".toList
  String.ofList (t.kind.name.toList ++ ' ' :: t.lexeme.toList ++ ' ' :: literal)

private def field (name : String) (value : List Char) : List Char :=
  Text.Json.quote name.toList ++ ':' :: value

/-- The JSON object of a token, in one line. -/
def json (t : Token) : String :=
  let literal := match t.literal with
    | some l => l.json
    | none => "null".toList
  let fields := [
    field "kind" (Text.Json.quote t.kind.name.toList),
    field "lexeme" (Text.Json.quote t.lexeme.toList),
    field "literal" literal,
    field "line" (toString t.line.toNat).toList]
  String.ofList ('{' :: (List.intercalate [','] fields ++ ['}']))

end Token

end LoxScan

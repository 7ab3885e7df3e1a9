import BracketTemplate.Script.Numeral

/-!
# Tokens

The words of the script language: names, keywords, symbols, numerals and strings. A token is read
together with the line it ends on and with its spelling, which is what a report shows of it.
-/

namespace BracketTemplate.Script

/-- A token. Keywords and symbols are told apart by their spelling. -/
inductive Token where
  | eof
  | name (text : Bytes)
  | keyword (text : String)
  | symbol (text : String)
  /-- A byte that starts no token. -/
  | stray (byte : UInt8)
  | number (n : Number)
  | string (text : Bytes)
  deriving Repr, Inhabited

/-- The words that are no names. -/
def keywords : List String :=
  ["and", "break", "do", "else", "elseif", "end", "false", "for", "function", "goto", "if", "in",
    "local", "nil", "not", "or", "repeat", "return", "then", "true", "until", "while"]

/-- A token with the line it ends on and its spelling. -/
structure Lexeme where
  token : Token
  line : Nat
  spelling : Bytes
  deriving Repr, Inhabited

/-- Why a script is no script: a line and a wording. -/
structure SyntaxFault where
  line : Nat
  wording : Bytes
  deriving Repr, Inhabited, DecidableEq

namespace Token

/-- How a report quotes a byte. -/
def quoteByte (b : UInt8) : Bytes :=
  if 32 ≤ b && b < 127 then [39, b, 39]
  else utf8 "'<\\" ++ utf8 (toString b.toNat) ++ utf8 ">'"

end Token

/-- How a report shows a lexeme: the end of the script by a word, everything else in quotes. -/
def Lexeme.near (l : Lexeme) : Bytes :=
  match l.token with
  | .eof => utf8 "<eof>"
  | .stray b => Token.quoteByte b
  | .keyword text | .symbol text => 39 :: utf8 text ++ [39]
  | _ => 39 :: l.spelling.takeWhile (· != 0) ++ [39]

end BracketTemplate.Script

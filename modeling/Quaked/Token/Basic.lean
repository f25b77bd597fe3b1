import Quaked.Text.Cursor
import Quaked.Text.Quoted

/-!
# Tokens of a definition file

A definition file holds numbers, words, quoted strings, a few marks and line breaks, which matter in
places. A token is one of these with the text it was made from. Everything outside the comments that
open a definition is made into tokens too.
-/

namespace Quaked

open Text

namespace Token

/-- The kinds of token. -/
inductive Kind where
  | integer
  | decimal
  | quoted
  | openParen
  | closeParen
  | openBrace
  | closeBrace
  | word
  | commentOpen
  | commentClose
  | semicolon
  | newline
  | comma
  | equals
  | minus
  | endOfFile
deriving DecidableEq, Repr

namespace Kind

/-- All kinds. -/
def all : List Kind :=
  [integer, decimal, quoted, openParen, closeParen, openBrace, closeBrace, word, commentOpen,
    commentClose, semicolon, newline, comma, equals, minus, endOfFile]

/-- The kind's name in messages. -/
def name : Kind → String
  | integer => "integer"
  | decimal => "decimal"
  | quoted => "quoted string"
  | openParen => "'('"
  | closeParen => "')'"
  | openBrace => "'\x7b'"
  | closeBrace => "'\x7d'"
  | word => "word"
  | commentOpen => "'/*'"
  | commentClose => "'*/'"
  | semicolon => "';'"
  | newline => "newline"
  | comma => "','"
  | equals => "'='"
  | minus => "'-'"
  | endOfFile => "end of file"

end Kind
end Token

/-- A token of a definition file. -/
structure Token where
  kind : Token.Kind
  /-- What the source says; of a quoted string, what it says between the quotes. -/
  text : String
  /-- Where the token starts, quotes included. -/
  position : Position
deriving DecidableEq, Repr

namespace Token

/-- Whether a token's kind is among `kinds`. -/
def isOneOf (t : Token) (kinds : List Kind) : Bool := t.kind ∈ kinds

/-- The token in messages. -/
def description (t : Token) : String :=
  match t.kind with
  | .integer | .decimal | .word => t.kind.name ++ " '" ++ t.text ++ "'"
  | .quoted => t.kind.name ++ " \"" ++ t.text ++ "\""
  | _ => t.kind.name

/-- What the text stands for inside quotes. -/
def value (t : Token) : String := String.ofList (unescape t.text.toList)

end Token
end Quaked

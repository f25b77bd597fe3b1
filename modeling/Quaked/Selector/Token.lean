import Quaked.Text.Cursor

/-!
# Tokens of a selector

A selector is made of strings, numbers, names and marks. Blanks and line breaks only separate them.
-/

namespace Quaked.Selector

open Text

namespace Token

/-- The kinds of token. -/
inductive Kind where
  | string
  | number
  | boolean
  | null
  | name
  | openParen
  | closeParen
  | openBracket
  | closeBracket
  | openBrace
  | closeBrace
  | comma
  | colon
  | arrow
  | equal
  | notEqual
  | less
  | lessOrEqual
  | greater
  | greaterOrEqual
  | and
  | or
  | not
  | bitAnd
  | bitOr
  | minus
  | endOfInput
deriving DecidableEq, Repr

/-- The kind's name in messages. -/
def Kind.title : Kind → String
  | string => "string"
  | number => "number"
  | boolean => "boolean"
  | null => "'null'"
  | name => "name"
  | openParen => "'('"
  | closeParen => "')'"
  | openBracket => "'['"
  | closeBracket => "']'"
  | openBrace => "'\x7b'"
  | closeBrace => "'\x7d'"
  | comma => "','"
  | colon => "':'"
  | arrow => "'->'"
  | equal => "'=='"
  | notEqual => "'!='"
  | less => "'<'"
  | lessOrEqual => "'<='"
  | greater => "'>'"
  | greaterOrEqual => "'>='"
  | and => "'&&'"
  | or => "'||'"
  | not => "'!'"
  | bitAnd => "'&'"
  | bitOr => "'|'"
  | minus => "'-'"
  | endOfInput => "end of input"

end Token

/-- A token of a selector. -/
structure Token where
  kind : Token.Kind
  /-- What the source says; of a quoted string, what it says between the quotes. -/
  text : String
  /-- Where the token starts, quotes included. -/
  position : Position
deriving DecidableEq, Repr

/-- The token in messages. -/
def Token.description (t : Token) : String :=
  match t.kind with
  | .number | .name | .boolean => t.kind.title ++ " '" ++ t.text ++ "'"
  | .string => t.kind.title ++ " \"" ++ t.text ++ "\""
  | _ => t.kind.title

end Quaked.Selector

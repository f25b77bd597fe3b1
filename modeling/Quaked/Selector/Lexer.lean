import Quaked.Selector.Source
import Quaked.Text.Blank
import Quaked.Text.Letter
import Quaked.Text.Lexeme
import Quaked.Text.Quoted

/-!
# Reading the tokens of a selector

As in a definition file, a token is read in two steps that only look at the unread characters: white
space is passed, and `lexeme` says which token stands there and how far it reaches. A minus in front
of a digit belongs to the number, and of two marks that start alike the longer one is taken.
-/

namespace Quaked.Selector

open Text

namespace Token

/-- Whether a character can start a name. -/
def startsName (c : Char) : Bool := isLetter c || c = '_'

/-- Whether a character can go on with a name. -/
def continuesName (c : Char) : Bool := isLetter c || isNumeral c || c = '_'

/-- How many digits stand at the front. -/
def digitExtent (cs : List Char) : Nat := (cs.takeWhile Char.isDigit).length

/-- How far a number without a sign reaches: its digits, and a point with digits behind it. -/
def numberExtent (cs : List Char) : Nat :=
  match cs.dropWhile Char.isDigit with
  | '.' :: rest =>
    if rest.head?.any Char.isDigit then digitExtent cs + 1 + digitExtent rest else digitExtent cs
  | _ => digitExtent cs

/-- The kind of a word. -/
def Kind.ofWord (word : List Char) : Kind :=
  if word = ['t', 'r', 'u', 'e'] ∨ word = ['f', 'a', 'l', 's', 'e'] then .boolean
  else if word = ['n', 'u', 'l', 'l'] then .null
  else .name

/-- A mark at the front of a text. -/
def markLexeme : List Char → Lexeme Kind
  | '-' :: '>' :: _ => .token .arrow 2
  | '=' :: '=' :: _ => .token .equal 2
  | '!' :: '=' :: _ => .token .notEqual 2
  | '<' :: '=' :: _ => .token .lessOrEqual 2
  | '>' :: '=' :: _ => .token .greaterOrEqual 2
  | '&' :: '&' :: _ => .token .and 2
  | '|' :: '|' :: _ => .token .or 2
  | '(' :: _ => .token .openParen 1
  | ')' :: _ => .token .closeParen 1
  | '[' :: _ => .token .openBracket 1
  | ']' :: _ => .token .closeBracket 1
  | '{' :: _ => .token .openBrace 1
  | '}' :: _ => .token .closeBrace 1
  | ',' :: _ => .token .comma 1
  | ':' :: _ => .token .colon 1
  | '<' :: _ => .token .less 1
  | '>' :: _ => .token .greater 1
  | '!' :: _ => .token .not 1
  | '&' :: _ => .token .bitAnd 1
  | '|' :: _ => .token .bitOr 1
  | '-' :: _ => .token .minus 1
  | c :: _ => .unexpected c
  | [] => .token .endOfInput 0

/-- What stands at the front of a text that starts with no white space. -/
def lexeme : List Char → Lexeme Kind
  | [] => .token .endOfInput 0
  | c :: cs =>
    if c = '"' then
      match interior? cs with
      | some n => .token .string (n + 2)
      | none => .unterminated
    else if c.isDigit then .token .number (numberExtent (c :: cs))
    else if c = '-' && cs.head?.any Char.isDigit then .token .number (numberExtent cs + 1)
    else if startsName c then
      let word := (c :: cs).takeWhile continuesName
      .token (Kind.ofWord word) word.length
    else markLexeme (c :: cs)

/-- The part of a token's extent that is its text: all of it, or what is between its quotes. -/
def Kind.textOf (kind : Kind) (extent : List Char) : String :=
  Text.textOf (kind = .string) extent

/-- How much white space comes before the next token. -/
def gap (cs : List Char) : Nat := (cs.takeWhile isSpace).length

/-- Reads a token. -/
def next : Reading Token :=
  Reading.token gap lexeme fun kind extent position => ⟨kind, kind.textOf extent, position⟩

/-- The tokens of a text up to its end, or up to a failure. -/
def all (text : String) : List Token × Option Error :=
  Reading.all next (·.kind = .endOfInput) (.ofString text)

end Token

/-- Tokens are read from a text. -/
instance : TokenSource Cursor := ⟨Token.next, Cursor.unread⟩

end Quaked.Selector

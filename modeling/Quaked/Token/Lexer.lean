import Quaked.Token.Basic
import Quaked.Text.Blank
import Quaked.Text.Extent
import Quaked.Text.Lexeme

/-!
# Reading the tokens of a definition file

A token is read in two steps, both of which only look at the unread characters: `gap` says how many
of them separate it from what came before, `lexeme` says which token stands there and how far it
reaches. `Token.next` moves the cursor accordingly, `Token.peek` looks ahead.
-/

namespace Quaked

open Text

namespace Token

/-- The characters that end a word or a number. -/
def wordDelimiters : List Char :=
  [' ', '\t', '\n', '\r', '(', ')', '[', ']', '{', '}', ';', ',', '=']

/-- Whether a character ends a word or a number. -/
def isWordDelimiter (c : Char) : Bool := c ∈ wordDelimiters

/-- Whether a character is a line break or a part of one. -/
def isLineBreak (c : Char) : Bool := c = '\n' || c = '\r'

/-- How many characters come before the next token: spaces, tabs, and line comments up to the end of
their line. -/
def gap : List Char → Nat
  | [] => 0
  | c :: cs =>
    if c = ' ' ∨ c = '\t' then gap cs + 1
    else if c = '/' ∧ cs.head? = some '/' then ((c :: cs).takeWhile (!isLineBreak ·)).length
    else 0

/-- A number or word: an integer if the text up to a delimiter is one, else a decimal, else a
word. -/
def wordLexeme (c : Char) (cs : List Char) : Lexeme Kind :=
  match integerExtent? isWordDelimiter (c :: cs) with
  | some n => .token .integer n
  | none =>
    match decimalExtent? isWordDelimiter (c :: cs) with
    | some n => .token .decimal n
    | none =>
      match wordExtent? isWordDelimiter (c :: cs) with
      | some n => .token .word n
      | none => .unexpected c

/-- What stands at the front of a text that starts with no gap. A comment's opening takes everything
with it up to the next blank, and a minus is a mark of its own only in front of a blank. -/
def lexeme : List Char → Lexeme Kind
  | [] => .token .endOfFile 0
  | '/' :: '*' :: cs => .token .commentOpen (('/' :: '*' :: cs).takeWhile (!isBlank ·)).length
  | '*' :: '/' :: _ => .token .commentClose 2
  | '(' :: _ => .token .openParen 1
  | ')' :: _ => .token .closeParen 1
  | '{' :: _ => .token .openBrace 1
  | '}' :: _ => .token .closeBrace 1
  | '=' :: _ => .token .equals 1
  | ';' :: _ => .token .semicolon 1
  | ',' :: _ => .token .comma 1
  | '\r' :: '\n' :: _ => .token .newline 2
  | '\r' :: _ => .token .newline 1
  | '\n' :: _ => .token .newline 1
  | '"' :: cs =>
    match interior? cs with
    | some n => .token .quoted (n + 2)
    | none => .unterminated
  | c :: cs =>
    if c = '-' && cs.head?.any isBlank then .token .minus 1 else wordLexeme c cs

/-- The part of a token's extent that is its text: all of it, or what is between its quotes. -/
def Kind.textOf (kind : Kind) (extent : List Char) : String :=
  Text.textOf (kind = .quoted) extent

/-- Reads a token. -/
def next : Reading Token :=
  Reading.token gap lexeme fun kind extent position => ⟨kind, kind.textOf extent, position⟩

/-- The next token, which is not consumed. -/
def peek : Reading Token := Reading.ahead next

/-- The failure to find one of `expected` where `found` is. -/
def mismatch (expected : List Kind) (found : Token) : Error :=
  ⟨.unexpectedToken (expected.map Kind.name) found.description, found.position⟩

/-- The token itself, if it is of one of the kinds. -/
def expect (kinds : List Kind) (t : Token) : Reading Token :=
  if t.isOneOf kinds then pure t else throw (mismatch kinds t)

/-- Reads a token of one of the kinds. -/
def nextOf (kinds : List Kind) : Reading Token := do expect kinds (← next)

/-- The next token, which is not consumed and has to be of one of the kinds. -/
def peekOf (kinds : List Kind) : Reading Token := do expect kinds (← peek)

/-- Passes line breaks. -/
def skipNewlines : Reading Unit := iterate Cursor.unread
  (fun _ => do
    if (← peek).kind = .newline then
      let _ ← next
      return some ()
    else return none) ()

/-- Reads a token of one of the kinds, behind any number of line breaks. -/
def nextOfPastNewlines (kinds : List Kind) : Reading Token := do
  skipNewlines
  nextOf kinds

/-- The next token behind any number of line breaks, which are consumed while it is not. -/
def peekPastNewlines : Reading Token := do
  skipNewlines
  peek

/-- The tokens of a text up to its end, or up to a failure. -/
def all (text : String) : List Token × Option Error :=
  Reading.all next (·.kind = .endOfFile) (.ofString text)

end Token
end Quaked

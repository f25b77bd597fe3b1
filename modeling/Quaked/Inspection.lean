import Quaked.Definition.File
import Quaked.Definition.Model
import Quaked.Text.Lookahead

/-!
# Inspections

An inspection reads a text under single commands, in any order: tokens of a definition file, tokens
of a selector, pieces of raw text, whole selectors. Every command sees the one cursor that the
others have moved, and a cursor that was marked can be returned to. A token that was looked at is
kept until it is consumed, or until a command reads at the cursor past it.
-/

namespace Quaked

open Text

namespace Inspection

/-- One token of a selector, consumed or not. -/
inductive Look where
  | next
  | peek
deriving DecidableEq, Repr

/-- A command. -/
inductive Command where
  /-- Reads a token. -/
  | next
  /-- Shows the next token. -/
  | peek
  /-- Reads a token of one of the kinds. -/
  | nextOf (kinds : List Token.Kind)
  /-- Marks the cursor. -/
  | mark
  /-- Returns to the mark of the given number, counted from zero. -/
  | back (index : Nat)
  /-- Starts over with the cursor as it is. -/
  | renew
  /-- Shows the part of the text that has been read. -/
  | progress
  /-- Shows the character under the cursor. -/
  | current
  /-- Shows the character after the one under the cursor. -/
  | following
  /-- Reads a character. -/
  | advance
  /-- Shows the bytes before the cursor. -/
  | offset
  /-- Shows whether everything has been read. -/
  | atEnd
  /-- Reads a whole number in front of one of the delimiters. -/
  | integer (delimiters : List Char)
  /-- Reads a numeral in front of one of the delimiters. -/
  | decimal (delimiters : List Char)
  /-- Reads up to one of the delimiters. -/
  | word (delimiters : List Char)
  /-- Reads the rest of a quoted string behind its opening quote. -/
  | interior
  /-- Reads up to a marker. -/
  | before (marker : String)
  /-- Passes characters that satisfy a predicate. -/
  | pass (p : Char → Bool)
  /-- Looks at tokens of a selector. -/
  | selectorTokens (looks : List Look)
  /-- Reads a selector. -/
  | selector (grammar : SelectorGrammar)

/-- Passes characters of a set. -/
def Command.passOf (set : List Char) : Command := .pass (· ∈ set)

/-- Passes characters up to one of a set. -/
def Command.passTo (set : List Char) : Command := .pass (· ∉ set)

/-- What a command shows. -/
inductive Answer where
  | nothing
  | token (result : Except Error Token)
  | index (n : Nat)
  | fraction (x : Number .double)
  | character (c : Option Char)
  | count (n : Nat)
  | truth (b : Bool)
  | text (s : Option String)
  | selectorTokens (results : List (Except Error Selector.Token))
  | selector (result : Except Error Selector)

/-- What a reader answers, and the state it leaves. -/
def run {σ α : Type} (reader : EStateM Error σ α) (s : σ) : Except Error α × σ :=
  match reader s with
  | .ok a s => (.ok a, s)
  | .error e s => (.error e, s)

/-- Takes the text of an extent, if there is one. -/
def take (c : Cursor) : Option Nat → Option String × Cursor
  | some n => (some (c.text n), c.skip n)
  | none => (none, c)

/-- Reads the token that a look asks for. -/
def Look.read : Look → EStateM Error (Lookahead Selector.Token) Selector.Token
  | next => Lookahead.next Selector.Token.next
  | peek => Lookahead.peek Selector.Token.next

/-- The results of looking at tokens of a selector one after the other. -/
def look (l : Lookahead Selector.Token) :
    List Look → List (Except Error Selector.Token) × Lookahead Selector.Token
  | [] => ([], l)
  | first :: looks =>
    let (result, l) := run first.read l
    let (results, l) := look l looks
    (result :: results, l)

/-- Carries out a command that needs nothing but the cursor. -/
def move (c : Cursor) : Command → Answer × Cursor
  | .current => (.character c.current?, c)
  | .following => (.character c.following?, c)
  | .advance => (.character c.current?, c.advance)
  | .offset => (.count c.offset, c)
  | .atEnd => (.truth c.atEnd, c)
  | .integer delimiters => (take c (integerExtent? (· ∈ delimiters) c.rest)).map .text id
  | .decimal delimiters => (take c (decimalExtent? (· ∈ delimiters) c.rest)).map .text id
  | .word delimiters => (take c (wordExtent? (· ∈ delimiters) c.rest)).map .text id
  | .interior => c.takeInterior.map .text id
  | .before marker => (c.takeBefore marker).map (.text ∘ some) id
  | .pass p => (.nothing, c.skip (c.run p))
  | .selectorTokens looks => (look { cursor := c } looks).map .selectorTokens (·.cursor)
  | .selector grammar => (run grammar.read c).map .selector id
  | _ => (.nothing, c)

/-- Consumes a token, which has to be of one of the kinds. -/
def nextOf (kinds : List Token.Kind) : EStateM Error (Lookahead Token) Token := do
  let t ← Lookahead.next Token.next
  if t.isOneOf kinds then return t else throw (Token.mismatch kinds t)

end Inspection

/-- An inspection under way. -/
structure Inspection where
  lexer : Lookahead Token
  marks : List Cursor := []

namespace Inspection

/-- An inspection that has read nothing yet. -/
def ofString (text : String) : Inspection := { lexer := { cursor := .ofString text } }

/-- Where the inspection is in the text: behind the last token that was consumed. -/
def cursor (i : Inspection) : Cursor := i.lexer.cursor

/-- Carries out a command. Those that read at the cursor put down the token that is kept. -/
def step (i : Inspection) : Command → Answer × Inspection
  | .next => (run (Lookahead.next Token.next) i.lexer).map .token ({ i with lexer := · })
  | .peek => (run (Lookahead.peek Token.next) i.lexer).map .token ({ i with lexer := · })
  | .nextOf kinds => (run (nextOf kinds) i.lexer).map .token ({ i with lexer := · })
  | .mark => (.index i.marks.length, { i with marks := i.marks ++ [i.cursor] })
  | .back index => (.nothing, { i with lexer := { cursor := i.marks.getD index i.cursor } })
  | .progress => (.fraction i.cursor.progress, i)
  | command => (move i.cursor command).map id fun c => { i with lexer := { cursor := c } }

/-- What commands show one after the other, each with the position afterwards. -/
def steps (i : Inspection) : List Command → List (Answer × Position)
  | [] => []
  | command :: commands =>
    let (answer, i) := i.step command
    (answer, i.cursor.position) :: steps i commands

end Inspection

end Quaked

import Quaked.Number.Numeral
import Quaked.Text.Quoted
import Quaked.Text.Cursor

/-!
# Extents

How far a piece of text reaches from the front of a list of characters, as a count. Two lexers and
the raw parts of a definition are read with these counts; a cursor then skips as many characters.
-/

namespace Quaked.Text

variable {α : Type}

/-- Whether a text is over or goes on with a delimiter. -/
def atDelimiter (isDelimiter : Char → Bool) (cs : List Char) : Bool := cs.head?.all isDelimiter

/-- How far a number reaches that `read?` finds, provided a delimiter or the end follows it. -/
def delimited? (isDelimiter : Char → Bool) (read? : List Char → Option (α × List Char))
    (cs : List Char) : Option Nat :=
  match read? cs with
  | some (_, rest) => if atDelimiter isDelimiter rest then some (cs.length - rest.length) else none
  | none => none

/-- How far a whole number reaches. -/
def integerExtent? (isDelimiter : Char → Bool) (cs : List Char) : Option Nat :=
  delimited? isDelimiter Numeral.readInteger? cs

/-- How far a numeral reaches. -/
def decimalExtent? (isDelimiter : Char → Bool) (cs : List Char) : Option Nat :=
  delimited? isDelimiter Numeral.read? cs

/-- How far the text reaches that no delimiter interrupts, if that is anywhere. -/
def wordExtent? (isDelimiter : Char → Bool) (cs : List Char) : Option Nat :=
  match (cs.takeWhile (!isDelimiter ·)).length with
  | 0 => none
  | n + 1 => some (n + 1)

/-- How far the text before a marker reaches, up to the end if the marker does not occur. -/
def markerDistance (marker : List Char) : List Char → Nat
  | [] => 0
  | c :: cs => if marker.isPrefixOf (c :: cs) then 0 else markerDistance marker cs + 1

/-- The text of `extent` characters at a cursor, and the cursor behind it. -/
def Cursor.take (c : Cursor) (extent : Nat) : String × Cursor := (c.text extent, c.skip extent)

/-- The text before a marker, and the cursor in front of the marker. -/
def Cursor.takeBefore (c : Cursor) (marker : String) : String × Cursor :=
  c.take (markerDistance marker.toList c.rest)

/-- The interior of a quoted string whose opening quote has been read, and the cursor behind its
closing quote; without a closing quote, nothing, and the cursor at the end. -/
def Cursor.takeInterior (c : Cursor) : Option String × Cursor :=
  match interior? c.rest with
  | some n => (some (c.text n), c.skip (n + 1))
  | none => (none, c.toEnd)

end Quaked.Text

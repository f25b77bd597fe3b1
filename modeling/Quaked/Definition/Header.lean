import Quaked.Entity.Basic
import Quaked.Token.Lexer

/-!
# Headers

The first line of a definition says what it declares:

    header  = name | name color extent flag*
    color   = "(" number number number ")"
    extent  = "(" number number number ")" "(" number number number ")" | "?" |
    flag    = word | "-"

Without a color the definition is a base. Behind the color stand the corners of a box, or a question
mark for a class without one, or at once the name of a flag; a minus reserves the bit of a flag.
-/

namespace Quaked

open Text
open Token (next peek nextOf peekOf)

/-- What a header says behind the name. -/
structure Header where
  color : Color
  bounds : Option Bounds
  /-- The names of the flags, empty for a reserved bit, from the lowest bit on. -/
  flags : List String

namespace Header

/-- A number of a format. -/
def readNumber (F : Format) : Reading (Number F) := do
  let t ← nextOf [.integer, .decimal]
  match Number.ofString? t.text with
  | some x => return x
  | none => Reading.fail (.invalid (.number t.text)) t.position

/-- Three numbers in parentheses. -/
def readTriple (F : Format) : Reading (Number F × Number F × Number F) := do
  let _ ← nextOf [.openParen]
  let x ← readNumber F
  let y ← readNumber F
  let z ← readNumber F
  let _ ← nextOf [.closeParen]
  return (x, y, z)

/-- A color. -/
def readColor : Reading Color := do
  let (red, green, blue) ← readTriple .single
  return .ofComponents red green blue

/-- A point in space. -/
def readVector : Reading Vector := do
  let (x, y, z) ← readTriple .double
  return ⟨x, y, z⟩

/-- A box by two of its corners. -/
def readBox : Reading Bounds := do
  let a ← readVector
  let b ← readVector
  return .spanning a b

/-- A box, or none in front of a word. The word is passed if it is a question mark. -/
def readExtent : Reading (Option Bounds) := do
  let t ← peekOf [.openParen, .word]
  if t.kind = .openParen then return some (← readBox)
  if t.text = "?" then let _ ← next
  return none

/-- One more flag, if the next token is one. -/
def readFlag? (flags : List String) : Reading (Option (List String)) := do
  if (← peek).isOneOf [.word, .minus] then
    let t ← next
    let name := if t.kind = .word then t.text else ""
    if flags.length < Attribute.flagLimit then return some (flags ++ [name])
    else Reading.fail (.invalid .flagCount) t.position
  else return none

/-- What follows the name, up to the end of the line. -/
def read : Reading Header := do
  let color ← readColor
  let bounds ← readExtent
  let flags ← iterate Cursor.unread readFlag? []
  return { color, bounds, flags }

/-- The attributes that a header declares: its flags, if it has any. -/
def attributes (h : Header) : List Attribute :=
  if h.flags.isEmpty then [] else [.ofFlagNames h.flags]

end Header
end Quaked

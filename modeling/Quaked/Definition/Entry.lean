import Quaked.Definition.Model
import Quaked.Entity.Attribute

/-!
# Entries

A definition may go on with entries in braces, each of them closed by a semicolon:

    entry   = default | base | choice | model | word
    default = "default" "(" string "," string ")"
    base    = "base" "(" string ")"
    choice  = "choice" string "(" ("(" integer "," string ")")* ")"
    model   = "model" "(" selector ")"

Line breaks may stand anywhere between their tokens but for two places: the name of a choice and the
parenthesis of a model follow at once. A default says nothing about the class, nor does a word that
is none of these.
-/

namespace Quaked

open Text
open Token (next nextOf nextOfPastNewlines skipNewlines)

/-- What an entry says. -/
inductive Entry where
  /-- Nothing. -/
  | idle
  /-- What to take over, and the position of the word that says so. -/
  | base (name : String) (position : Position)
  | choice (name : String) (options : List ChoiceOption)
  | model (clause : ModelClause)

namespace Entry

/-- A default, which is not kept. -/
def readDefault : Reading Entry := do
  let _ ← nextOfPastNewlines [.openParen]
  let _ ← nextOfPastNewlines [.quoted]
  let _ ← nextOfPastNewlines [.comma]
  let _ ← nextOfPastNewlines [.quoted]
  let _ ← nextOfPastNewlines [.closeParen]
  return idle

/-- The reference to a base that starts at a position. -/
def readBase (position : Position) : Reading Entry := do
  let _ ← nextOfPastNewlines [.openParen]
  let name ← nextOfPastNewlines [.quoted]
  let _ ← nextOfPastNewlines [.closeParen]
  return base name.value position

/-- The key that a token writes. -/
def keyOf (t : Token) : Reading Int :=
  match Word.ofString? t.text with
  | some key => return key
  | none => Reading.fail (.invalid (.choiceKey t.text)) t.position

/-- The rest of an option behind its parenthesis. -/
def readOption : Reading ChoiceOption := do
  let key ← keyOf (← nextOfPastNewlines [.integer])
  let _ ← nextOfPastNewlines [.comma]
  let description ← nextOfPastNewlines [.quoted]
  let _ ← nextOfPastNewlines [.closeParen]
  return ⟨key, description.value⟩

/-- One more option, or none at the parenthesis that closes the choice. Both are consumed. -/
def readOption? (options : List ChoiceOption) : Reading (Option (List ChoiceOption)) := do
  skipNewlines
  let t ← next
  if t.kind = .openParen then return some (options ++ [← readOption])
  let _ ← Token.expect [.closeParen] t
  return none

/-- A choice. -/
def readChoice : Reading Entry := do
  let name ← nextOf [.quoted]
  let _ ← nextOfPastNewlines [.openParen]
  return choice name.value (← iterate Cursor.unread readOption? [])

/-- The rest of an entry behind the word it starts with. -/
def readRest (dialect : Dialect) (word : Token) : Reading Entry :=
  if word.text = "default" then readDefault
  else if word.text = "base" then readBase word.position
  else if word.text = "choice" then readChoice
  else if word.text = "model" then return model (← ModelClause.read dialect)
  else return idle

end Entry
end Quaked

import Quaked.Definition.Grammar
import Quaked.Number.Basic

/-!
# Definition files

A file is read definition by definition. `File.read` stops at the first failure and then gives no
class at all; `File.calls` goes on, as often as it is told to.
-/

namespace Quaked

open Text

/-- The part of a text that has been read, one for an empty text. -/
def Text.Cursor.progress (c : Cursor) : Number .double :=
  if c.size = 0 then .ofInt 1 else .ofRatio false c.offset c.size

namespace Definition

/-- Notes how far the file is read. -/
def noteProgress : Parsing Unit :=
  modify fun s => { s with progress := s.progress ++ [s.cursor.progress] }

/-- The classes so far and the one of the next definition, or none if there is no definition. -/
def entity? (settings : Settings) (entities : List EntityClass) :
    Parsing (Option (List EntityClass)) := do
  let outcome ← next settings
  noteProgress
  match outcome with
  | .finished => return none
  | .base _ => return some entities
  | .entity e => return some (entities ++ [e])

/-- All classes up to the end of the file. -/
def entities (settings : Settings) : Parsing (List EntityClass) :=
  iterate Session.unread (entity? settings) []

end Definition

/-- What reading a file comes to. -/
structure File where
  /-- The classes of entities, or why there are none. -/
  result : Except Error (List EntityClass)
  /-- The session at the end of reading. -/
  session : Session

namespace File

/-- Splits what a reader answers from the session it ends in. -/
def split {α : Type} : EStateM.Result Error Session α → Except Error α × Session
  | .ok a s => (.ok a, s)
  | .error e s => (.error e, s)

/-- Reads a file. -/
def read (settings : Settings) (text : String) : File :=
  let (result, session) := split (Definition.entities settings (.ofString text))
  { result, session }

/-- What one of several calls comes to. -/
structure Call where
  result : Except Error Outcome
  /-- The warnings of this call. -/
  warnings : List Warning
  /-- The bases known after it. -/
  bases : BaseTable

/-- Reads one definition after the other, `limit` times, whether there is one or not. -/
def calls (settings : Settings) (s : Session) : (limit : Nat) → List Call
  | 0 => []
  | limit + 1 =>
    let (result, s) := split (Definition.next settings { s with warnings := [] })
    { result, warnings := s.warnings, bases := s.bases } :: calls settings s limit

end File
end Quaked

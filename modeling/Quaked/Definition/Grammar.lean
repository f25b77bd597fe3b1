import Quaked.Definition.Declaration
import Quaked.Definition.Entry
import Quaked.Definition.Header
import Quaked.Definition.Warning

/-!
# Definitions

A definition is a comment that starts with a mark such as `/*QUAKED`:

    definition  = mark header newline ("{" (entry ";")* "}")? description "*/"

Between the entries and the end of the comment everything is description. `next` reads the next
definition of a file, wherever it starts, and keeps what it declares if that is a base. What has
been warned about stays so if the definition fails afterwards, and reading can go on behind a
failure.
-/

namespace Quaked

open Text

/-- A definition file while it is read. -/
structure Session where
  cursor : Cursor
  bases : BaseTable := {}
  /-- All warnings, in order. -/
  warnings : List Warning := []
  /-- The parts of the file that were read when progress was noted, in order. -/
  progress : List (Number .double) := []

/-- What reading the next definition comes to. -/
inductive Outcome where
  /-- There is no further definition. -/
  | finished
  /-- A base, which is known by its name from here on. -/
  | base (name : String)
  | entity (entity : EntityClass)

/-- What reading goes by. -/
structure Settings where
  dialect : Dialect := {}
  /-- The color of a class that has none. -/
  defaultColor : Color := .gray

namespace Session

/-- A file that nothing has been read of. -/
def ofString (text : String) : Session := { cursor := .ofString text }

/-- How many characters are left to read. -/
def unread (s : Session) : Nat := s.cursor.unread

end Session

namespace Definition

/-- What reads in a session. -/
abbrev Parsing (α : Type) := EStateM Error Session α

/-- A reader moves the cursor of a session. -/
instance : MonadLift Reading (EStateM Error Session) where
  monadLift reader := fun s =>
    match reader s.cursor with
    | .ok a c => .ok a { s with cursor := c }
    | .error e c => .error e { s with cursor := c }

/-- Adds warnings. -/
def warn (warnings : List Warning) : Parsing Unit :=
  modify fun s => { s with warnings := s.warnings ++ warnings }

/-! ### Parts -/

/-- Passes everything in front of the next definition, and the mark it starts with. There is none at
the end of the file. -/
def opening : Reading Bool := do
  iterate Cursor.unread
    (fun _ => do
      if (← Token.peek).isOneOf [.commentOpen, .endOfFile] then return none
      let _ ← Token.next
      return some ())
    ()
  return (← Token.next).kind = .commentOpen

/-- The name of a definition, the rest of its header, and the end of the line. -/
def header : Reading (String × Option Header) := do
  let name ← Token.nextOf [.word]
  let t ← Token.peekOf [.openParen, .newline]
  let header ← if t.kind = .openParen then some <$> Header.read else pure none
  let _ ← Token.nextOf [.newline]
  return (name.text, header)

/-- The warning that an entry earns. -/
def warningsOf : Entry → List Warning
  | .model ⟨selector, some position⟩ => [⟨.replaceable selector, position⟩]
  | _ => []

/-- One more entry and its semicolon, or none at the brace that closes the entries. -/
def readEntry (dialect : Dialect) (entries : List Entry) : Parsing (Option (List Entry)) := do
  let t ← Token.nextOfPastNewlines [.word, .closeBrace]
  if t.kind = .closeBrace then return none
  let entry ← Entry.readRest dialect t
  warn (warningsOf entry)
  let _ ← Token.nextOfPastNewlines [.semicolon]
  return some (entries ++ [entry])

/-- The entries in braces, if the next token is a brace. -/
def entries (dialect : Dialect) : Parsing (List Entry) := do
  if (← Token.peek).kind ≠ .openBrace then return []
  let _ ← Token.next
  iterate Session.unread (readEntry dialect) []

/-- The text up to the end of the comment, without white space at its ends. -/
def description : Reading String := do
  if (← Token.peek).kind = .commentClose then return ""
  let (text, c) := (← get).takeBefore "*/"
  set c
  return String.ofList (trim text.toList)

/-! ### Declarations -/

/-- Adds to a declaration what an entry says. -/
def add (d : Declaration) : Entry → Declaration
  | .idle => d
  | .base name position => { d with bases := d.bases ++ [(name, position)] }
  | .choice name options => { d with attributes := d.attributes ++ [.choice name options] }
  | .model clause => { d with model := some clause.selector }

/-- What the parts of a definition declare. -/
def declaration (name : String) (header : Option Header) (entries : List Entry)
    (description : String) : Declaration :=
  let start : Declaration :=
    { name, description
      color := header.map (·.color)
      bounds := header.bind (·.bounds)
      attributes := (header.map (·.attributes)).getD [] }
  entries.foldl add start

/-- Reads a definition behind its mark. -/
def declare (dialect : Dialect) : Parsing Declaration := do
  let (name, header) ← header
  let entries ← entries dialect
  let description ← description
  let _ ← Token.nextOf [.commentClose]
  return declaration name header entries description

/-- Resolves a declaration, with a warning for each base that is not known. -/
def resolve (d : Declaration) : Parsing Declaration := do
  let table := (← get).bases
  warn ((table.unknownBasesOf d).map fun (name, position) => ⟨.unknownBase name, position⟩)
  return d.resolve table

/-- Keeps a base. -/
def keep (d : Declaration) : Parsing Outcome := do
  modify fun s => { s with bases := s.bases.insert d }
  return .base d.name

/-- Reads the next definition. -/
def next (settings : Settings) : Parsing Outcome := do
  if ← opening then
    let d ← resolve (← declare settings.dialect)
    if d.isBase then keep d else return .entity (d.entityClass settings.defaultColor)
  else return .finished

end Definition
end Quaked

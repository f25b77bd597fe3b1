import Quaked.Number.Word
import Quaked.Selector.Basic
import Quaked.Token.Lexer

/-!
# Positional selectors

The older way to select a model lists entries by position, in the tokens of a definition file and
with line breaks anywhere between them:

    entries  = entry ("," entry)*
    entry    = fixed | keyed
    fixed    = string (integer integer?)? (word "=" (string | integer))?
    keyed    = (word "=" string)+

A fixed entry has a path, a skin and a frame, and the condition it applies under. A keyed entry
names the attributes that hold them, with the keys `pathKey`, `skinKey` and `frameKey`; a path has
to be among them, and of a repeated key the last counts. `Entry.selector` says what an entry means
as a selector, and `selector` what a list of entries does.
-/

namespace Quaked.Positional

open Text
open Token (next peek peekPastNewlines nextOfPastNewlines)

/-- What the attribute of a condition is compared with. -/
inductive Operand where
  | string (s : String)
  | integer (n : Int)
deriving DecidableEq, Repr

/-- One entry. -/
inductive Entry where
  | fixed (path : String) (skin frame : Option Int) (condition : Option (String × Operand))
  | keyed (path : String) (skin frame : Option String)
deriving DecidableEq, Repr

/-! ### Meaning -/

/-- The operand as a selector. -/
def Operand.selector : Operand → Selector
  | string s => .string s
  | integer n => .number (Number.ofInt n)

/-- The map of a path with a skin and a frame, as far as they are there. -/
def modelMap (path : Selector) (skin frame : Option Selector) : Selector :=
  .map (("path", path) :: (skin.map (("skin", ·))).toList ++ (frame.map (("frame", ·))).toList)

/-- The entry as a selector. -/
def Entry.selector : Entry → Selector
  | fixed path skin frame condition =>
    let model := modelMap (.string path) (skin.map (.number <| Number.ofInt ·))
      (frame.map (.number <| Number.ofInt ·))
    match condition with
    | none => model
    | some (name, operand) => .guarded (.binary .equal (.lookup name) operand.selector) model
  | keyed path skin frame => modelMap (.lookup path) (skin.map .lookup) (frame.map .lookup)

/-- Whether an entry applies under a condition only. -/
def Entry.isConditional : Entry → Bool
  | fixed _ _ _ condition => condition.isSome
  | keyed _ _ _ => false

/-- Entries as a selector. The first that applies counts; one that always applies needs no choice
around it if it is alone. -/
def selector (entries : List Entry) : Selector :=
  match entries with
  | [entry] => if entry.isConditional then .choice [entry.selector] else entry.selector
  | entries => .choice (entries.map Entry.selector)

/-! ### Reading -/

/-- The integer that a token writes. -/
def integerOf (t : Token) : Reading Int :=
  match Word.ofString? t.text with
  | some n => return n
  | none => Reading.fail (.invalid (.integer t.text)) t.position

/-- An integer, if the next token is one. -/
def integer? : Reading (Option Int) := do
  if (← peekPastNewlines).kind = .integer then return some (← integerOf (← next)) else return none

/-- What a condition compares with. -/
def operand : Reading Operand := do
  let t ← nextOfPastNewlines [.quoted, .integer]
  if t.kind = .integer then return .integer (← integerOf t) else return .string t.value

/-- A condition, if the next token is a word. -/
def condition? : Reading (Option (String × Operand)) := do
  if (← peekPastNewlines).kind = .word then
    let name ← next
    let _ ← nextOfPastNewlines [.equals]
    return some (name.text, ← operand)
  else return none

/-- An entry that starts with its path. -/
def fixed : Reading Entry := do
  let path ← nextOfPastNewlines [.quoted]
  let skin ← integer?
  let frame ← integer?
  return .fixed path.value skin frame (← condition?)

/-- The names of the attributes that hold a path, a skin and a frame, as far as they are known. -/
structure Keys where
  path : Option String := none
  skin : Option String := none
  frame : Option String := none
deriving DecidableEq, Repr

/-- Puts the name of an attribute under a key, if there is such a key. -/
def Keys.set? (keys : Keys) (key name : String) : Option Keys :=
  if key = "pathKey" then some { keys with path := some name }
  else if key = "skinKey" then some { keys with skin := some name }
  else if key = "frameKey" then some { keys with frame := some name }
  else none

/-- Adds a key, if the next token is a word. -/
def key? (keys : Keys) : Reading (Option Keys) := do
  if (← peekPastNewlines).kind = .word then
    let key ← next
    let _ ← nextOfPastNewlines [.equals]
    let name ← nextOfPastNewlines [.quoted]
    match keys.set? key.text name.value with
    | some keys => return some keys
    | none => Reading.fail (.invalid (.modelKey key.text)) key.position
  else return none

/-- An entry of keys. -/
def keyed : Reading Entry := do
  let keys ← iterate Cursor.unread key? {}
  match keys.path with
  | some path => return .keyed path keys.skin keys.frame
  | none => Reading.fail (.invalid .missingPath) (← get).position

/-- An entry. -/
def entry : Reading Entry := do
  let t ← Token.expect [.quoted, .word] (← peekPastNewlines)
  if t.kind = .quoted then fixed else keyed

/-- Entries with commas between them, at least one. -/
def entries : Reading (List Entry) := do
  iterate Cursor.unread
    (fun entries => do
      if (← peekPastNewlines).kind = .comma then
        let _ ← next
        return some (entries ++ [← entry])
      else return none)
    [← entry]

/-- A positional selector. What follows it is left. -/
def expression : Reading Selector := return selector (← entries)

end Quaked.Positional

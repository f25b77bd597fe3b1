import Quaked.Number.Shortest

/-!
# JSON texts

Documents as they are written: one item or field on a line, two more spaces for each level. An empty
list has no lines. Numbers are spelled by whoever makes the document.
-/

namespace Quaked

/-- A document. -/
inductive Json where
  | null
  /-- A number as it is spelled. -/
  | number (spelling : String)
  | string (text : String)
  | array (items : List Json)
  | object (fields : List (String × Json))

namespace Json

/-- A character inside a string. Quotes, backslashes and control characters are escaped. -/
def escapeChar (c : Char) : List Char :=
  match c with
  | '"' => ['\\', '"']
  | '\\' => ['\\', '\\']
  | '\x08' => ['\\', 'b']
  | '\x0c' => ['\\', 'f']
  | '\n' => ['\\', 'n']
  | '\r' => ['\\', 'r']
  | '\t' => ['\\', 't']
  | c =>
    if c.toNat < 0x20 then
      ['\\', 'u', '0', '0', Nat.digitChar (c.toNat / 16), Nat.digitChar (c.toNat % 16)]
    else [c]

/-- A string in quotes. -/
def quoted (text : String) : String :=
  String.ofList ('"' :: text.toList.flatMap escapeChar ++ ['"'])

/-- The start of a line on a level. -/
def newLine (level : Nat) : String := "\n" ++ String.ofList (List.replicate (2 * level) ' ')

/-- Lines between two brackets, with commas between them. -/
def bracketed (opening closing : String) (level : Nat) (pieces : List String) : String :=
  if pieces.isEmpty then opening ++ closing
  else
    opening ++ String.intercalate "," (pieces.map (newLine (level + 1) ++ ·)) ++ newLine level ++
      closing

mutual

/-- The text of a document on a level. -/
def text (level : Nat) : Json → String
  | null => "null"
  | number spelling => spelling
  | string text => quoted text
  | array items => bracketed "[" "]" level (itemTexts (level + 1) items)
  | object fields => bracketed "\x7b" "\x7d" level (fieldTexts (level + 1) fields)

/-- The texts of a list's items. -/
def itemTexts (level : Nat) : List Json → List String
  | [] => []
  | item :: items => text level item :: itemTexts level items

/-- The texts of fields with their names. -/
def fieldTexts (level : Nat) : List (String × Json) → List String
  | [] => []
  | (name, value) :: fields =>
    (quoted name ++ ": " ++ text level value) :: fieldTexts level fields

end

/-- A number of a report; what cannot be written as one is null. -/
def ofNumber {F : Format} (range : PlainRange) (x : Number F) : Json :=
  match x.reportText? range with
  | some spelling => number spelling
  | none => null

/-- An integer. -/
def ofInt (n : Int) : Json := number (toString n)

end Json
end Quaked

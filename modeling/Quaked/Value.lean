import Quaked.Number.Shortest
import Quaked.Text.Blank
import Quaked.Text.Quoted

/-!
# Values

What a selector calculates with. The attributes of an entity are strings, so a string that writes a
number counts as that number wherever one is asked for (`asNumber?`), and equality goes by numbers
as soon as one side is a number (`looselyEquals`). `spell` writes a value the way a selector writes
it.
-/

namespace Quaked

open Text

/-- What a selector can evaluate to. -/
inductive Value where
  /-- What an unset attribute, or a choice of which nothing applies, evaluates to. -/
  | undefined
  | null
  | boolean (b : Bool)
  | number (x : Number .double)
  | string (s : String)
  | array (items : List Value)
  /-- Keys with their values, in order; a key may occur again. -/
  | map (entries : List (String × Value))

namespace Value

/-- The name of the value's type in messages. -/
def typeName : Value → String
  | undefined => "undefined"
  | null => "null"
  | boolean _ => "boolean"
  | number _ => "number"
  | string _ => "string"
  | array _ => "array"
  | map _ => "map"

/-- Whether the value counts as true in a condition. What is no number does, zero does not. -/
def isTruthy : Value → Bool
  | undefined | null => false
  | boolean b => b
  | number x => !(x == Number.zero)
  | string s => s ≠ ""
  | array items => !items.isEmpty
  | map entries => !entries.isEmpty

/-- The number that the value counts as. -/
def asNumber? : Value → Option (Number .double)
  | number x => some x
  | boolean b => some (Number.ofInt b.toNat)
  | string s => Number.ofString? (String.ofList (trim s.toList))
  | _ => none

/-! ### Equality -/

mutual

/-- Equality of values of the same make. -/
def equals : Value → Value → Bool
  | undefined, undefined => true
  | null, null => true
  | boolean a, boolean b => a = b
  | number x, number y => x == y
  | string a, string b => a = b
  | array a, array b => allEqual a b
  | map a, map b => allEntriesEqual a b
  | _, _ => false

/-- Equality item by item. -/
def allEqual : List Value → List Value → Bool
  | [], [] => true
  | a :: as, b :: bs => equals a b && allEqual as bs
  | _, _ => false

/-- Equality entry by entry, keys and values. -/
def allEntriesEqual : List (String × Value) → List (String × Value) → Bool
  | [], [] => true
  | (k, a) :: as, (l, b) :: bs => k = l && equals a b && allEntriesEqual as bs
  | _, _ => false

end

/-- Values are equal if they are of the same make; numbers among them compare as numbers. -/
instance : BEq Value := ⟨equals⟩

/-- Whether a value is a number, not just something that counts as one. -/
def isNumber : Value → Bool
  | number _ => true
  | _ => false

/-- The equality that selectors test: between the numbers both sides count as if one of them is a
number, else that of values of the same make. -/
def looselyEquals (a b : Value) : Bool :=
  if a.isNumber || b.isNumber then
    match a.asNumber?, b.asNumber? with
    | some x, some y => x == y
    | _, _ => false
  else a == b

/-! ### Spelling -/

/-- Numbers that are whole and smaller than this are written as integers, zero without a sign. -/
def integerBound : Nat := 1000000000000000

/-- An integer in decimal digits. -/
def spellInteger (n : Int) : List Char :=
  Number.signText (decide (n < 0)) ++ Nat.toDigits 10 n.natAbs

/-- The spelling of a number. -/
def spellNumber (x : Number .double) : List Char :=
  match x.integer? integerBound with
  | some n => spellInteger n
  | none => x.text.toList

/-- The spelling of a quoted string. -/
def spellString (s : String) : List Char := '"' :: escape s.toList ++ ['"']

/-- Joins pieces with a comma and a space between them. -/
def commaSeparated : List (List Char) → List Char
  | [] => []
  | [piece] => piece
  | piece :: pieces => piece ++ ',' :: ' ' :: commaSeparated pieces

/-- A key and what it stands for. -/
def spellEntry (key : String) (value : List Char) : List Char :=
  spellString key ++ ':' :: ' ' :: value

/-- A list in brackets. -/
def spellArray (items : List (List Char)) : List Char := '[' :: commaSeparated items ++ [']']

/-- A list in braces, set off by a space on either side. -/
def spellMap (entries : List (List Char)) : List Char :=
  '{' :: ' ' :: commaSeparated entries ++ [' ', '}']

mutual

/-- How a selector writes the value. There is no way to write what is undefined. -/
def spell : Value → List Char
  | undefined | null => ['n', 'u', 'l', 'l']
  | boolean b => if b then ['t', 'r', 'u', 'e'] else ['f', 'a', 'l', 's', 'e']
  | number x => spellNumber x
  | string s => spellString s
  | array items => spellArray (spellItems items)
  | map entries => spellMap (spellEntries entries)

/-- The spellings of a list's items. -/
def spellItems : List Value → List (List Char)
  | [] => []
  | item :: items => spell item :: spellItems items

/-- The spellings of a map's entries. -/
def spellEntries : List (String × Value) → List (List Char)
  | [] => []
  | (key, value) :: entries => spellEntry key (spell value) :: spellEntries entries

end

/-- The value's text. -/
def text (v : Value) : String := String.ofList v.spell

end Value
end Quaked

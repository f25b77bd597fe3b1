import Quaked.Number.Decimal

/-!
# Numerals

A *numeral* is the way a number is written: an optional sign, digits with an optional point among
them, and an optional exponent. The readers take a numeral from the front of a list of characters
and leave the rest, so a text is a numeral as a whole if reading leaves nothing (`ofString?`), and a
numeral stands in front of a delimiter if reading leaves a rest that starts with one.
-/

namespace Quaked

/-- A decimal with a sign, so that there are two zeros. -/
structure Numeral where
  negative : Bool
  value : Decimal
deriving DecidableEq, Repr

namespace Numeral

/-- The digits at the front of a text, and the rest. -/
def digits (cs : List Char) : List Char × List Char :=
  (cs.takeWhile Char.isDigit, cs.dropWhile Char.isDigit)

/-- Whether a minus sign stands in front, and the text behind the sign, which may be missing. -/
def sign : List Char → Bool × List Char
  | '+' :: cs => (false, cs)
  | '-' :: cs => (true, cs)
  | cs => (false, cs)

/-- The digits behind a point, if there is a point, and the rest. -/
def fraction : List Char → List Char × List Char
  | '.' :: cs => digits cs
  | cs => ([], cs)

/-- The integer of the given sign and size. -/
def signed (negative : Bool) (size : Nat) : Int := if negative then -(size : Int) else size

/-- A signed whole number at the front of a text, and the rest. -/
def readInteger? (cs : List Char) : Option (Int × List Char) :=
  let (negative, cs) := sign cs
  let (whole, rest) := digits cs
  if whole.isEmpty then none else some (signed negative (Nat.ofDigitChars 10 whole 0), rest)

/-- The exponent at the front of a text, zero if no `e` stands there, and the rest. An `e` without
digits behind it is refused. -/
def readExponent? : List Char → Option (Int × List Char)
  | 'e' :: cs => readInteger? cs
  | 'E' :: cs => readInteger? cs
  | cs => some (0, cs)

/-- A numeral at the front of a text, and the rest. -/
def read? (cs : List Char) : Option (Numeral × List Char) :=
  let (negative, cs) := sign cs
  let (whole, cs) := digits cs
  let (places, cs) := fraction cs
  if whole.isEmpty && places.isEmpty then none
  else
    (readExponent? cs).map fun (exponent, rest) =>
      (⟨negative, Nat.ofDigitChars 10 (whole ++ places) 0, exponent - places.length⟩, rest)

/-- The whole number that a text writes. -/
def integer? (text : String) : Option Int :=
  match readInteger? text.toList with
  | some (n, []) => some n
  | _ => none

/-- The numeral that a text is. -/
def ofString? (text : String) : Option Numeral :=
  match read? text.toList with
  | some (numeral, []) => some numeral
  | _ => none

end Numeral
end Quaked

/-!
# Decimals

A `Decimal` is a natural number times a power of ten. `digits` takes it apart into its significant
digits and the place of the point, and `positional` writes it without an exponent.
-/

namespace Quaked

/-- The value `coefficient · 10 ^ exponent`. -/
structure Decimal where
  coefficient : Nat
  exponent : Int
deriving DecidableEq, Repr

namespace Decimal

/-- How many digits the coefficient has; zero has one. -/
def length (d : Decimal) : Nat := (Nat.toDigits 10 d.coefficient).length

/-- The list without the zeros at its end. -/
def trimZeros (cs : List Char) : List Char := (cs.reverse.dropWhile (· = '0')).reverse

/-- The digits of a decimal other than zero without zeros at their end, and the power of ten `point`
for which the decimal is `0.digits · 10 ^ point`. -/
def digits (d : Decimal) : List Char × Int :=
  (trimZeros (Nat.toDigits 10 d.coefficient), d.length + d.exponent)

/-- Writes `0.digits · 10 ^ point` without an exponent. The digits after the point are given to
`fraction`, which puts the point before them and decides what stands for none. -/
def place (digits : List Char) (point : Int) (fraction : List Char → List Char) : List Char :=
  if point ≤ 0 then
    '0' :: fraction (List.replicate (-point).toNat '0' ++ digits)
  else if digits.length ≤ point.toNat then
    digits ++ List.replicate (point.toNat - digits.length) '0' ++ fraction []
  else
    digits.take point.toNat ++ fraction (digits.drop point.toNat)

/-- A point and the digits behind it, or nothing if there are none. -/
def optionalPoint (places : List Char) : List Char := if places.isEmpty then [] else '.' :: places

/-- A point and the digits behind it, at least one. -/
def requiredPoint (places : List Char) : List Char :=
  '.' :: if places.isEmpty then ['0'] else places

/-- The plain decimal spelling: no exponent, no point in a whole number. -/
def positional (d : Decimal) : List Char :=
  if d.coefficient = 0 then ['0']
  else
    let (digits, point) := d.digits
    place digits point optionalPoint

end Decimal
end Quaked

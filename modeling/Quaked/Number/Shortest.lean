import Quaked.Number.Basic

/-!
# Decimal texts of numbers

A number is written with the fewest digits that are read back as the same number of its format, and
of several such decimals the nearest (`Magnitude.shortest`). Only the point at which two neighbours
are equally near is left to the kind of text: plain text takes the upper one, reports the even one.
The three spellings of a number, plain (`text`), with two places (`textInHundredths`) and in a
report (`reportText?`), share these digits or the exact value and differ in where the point and an
exponent go. The examples at the end show each of their decisions.
-/

namespace Quaked

namespace Magnitude

variable {F : Format}

/-- The decimal that equals a magnitude. -/
def exact (m : Magnitude F) : Decimal := ⟨m.units * Nat.pow 5 F.scale, -F.scale⟩

/-- Whether a decimal is read as this magnitude. -/
def reads (m : Magnitude F) (d : Decimal) : Bool := F.ofDecimal d = m.units

/-- The first decimal that reads back, searched from few digits to many: first among those that
leave out `dropped` digits of the exact one, and then with one digit more each time. -/
def shortestFrom (m : Magnitude F) (tie : Tie) : Nat → Decimal
  | 0 => m.exact
  | dropped + 1 =>
    let step := Nat.pow 10 (dropped + 1)
    let on (coefficient : Nat) : Decimal := ⟨coefficient, m.exact.exponent + (dropped + 1 : Nat)⟩
    let below := on (m.exact.coefficient / step)
    let above := on (m.exact.coefficient / step + 1)
    if m.reads below then
      if m.reads above then on (roundDiv tie m.exact.coefficient step) else below
    else
      if m.reads above then above else m.shortestFrom tie dropped

/-- The decimal with the fewest digits that reads back, the nearest if there are several. -/
def shortest (m : Magnitude F) (tie : Tie) : Decimal := m.shortestFrom tie (m.exact.length - 1)

end Magnitude

namespace Number

variable {F : Format}

/-- A minus sign for a negative number. -/
def signText (negative : Bool) : List Char := if negative then ['-'] else []

/-- A number with its sign; what is no number has none. -/
def textWith (body : Magnitude F → List Char) (x : Number F) : String :=
  String.ofList <| match x with
    | .nan => ['N', 'a', 'N']
    | .infinite negative => signText negative ++ ['i', 'n', 'f']
    | .finite negative magnitude => signText negative ++ body magnitude

/-- The plain text of a number: its shortest digits, never an exponent, no point in a whole
number. -/
def text (x : Number F) : String := x.textWith fun m => (m.shortest .up).positional

/-- The text of a number rounded to two places, from its exact value, ties to even. -/
def textInHundredths (x : Number F) : String := x.textWith fun m =>
  let hundredths := roundDiv .toEven (m.units * 100) F.one
  Nat.toDigits 10 (hundredths / 100) ++ '.' :: (Nat.digitChar (hundredths % 100 / 10)) ::
    [Nat.digitChar (hundredths % 10)]

end Number

/-- When a report writes a number without an exponent: from `10 ^ low` to below
`10 ^ (high + 1)`. -/
structure PlainRange where
  low : Int
  high : Int

/-- The plain range of 64-bit numbers. -/
def PlainRange.double : PlainRange := ⟨-5, 15⟩

/-- The plain range of 32-bit numbers. -/
def PlainRange.single : PlainRange := ⟨-6, 12⟩

namespace Decimal

/-- The text of a decimal in a report: with a point and at least one place inside the plain range,
else with an exponent, its sign, and a point only between two digits. -/
def reportText (d : Decimal) (range : PlainRange) : List Char :=
  if d.coefficient = 0 then ['0', '.', '0']
  else
    let (digits, point) := d.digits
    let exponent := point - 1
    if range.low ≤ exponent ∧ exponent ≤ range.high then place digits point requiredPoint
    else
      digits.take 1 ++ optionalPoint (digits.drop 1) ++
        'e' :: (if exponent < 0 then '-' else '+') :: Nat.toDigits 10 exponent.natAbs

end Decimal

namespace Number

variable {F : Format}

/-- The text of a number in a report, which has none for an infinity or what is no number. -/
def reportText? (range : PlainRange) : Number F → Option String
  | .finite negative magnitude =>
    some (String.ofList (signText negative ++ (magnitude.shortest .toEven).reportText range))
  | _ => none

/-! ### Decisions -/

/-- A half written out. -/
example : (ofRatio false 1 2 : Number .double).text = "0.5" := by decide +kernel

/-- A large number without an exponent. -/
example : (ofInt (10 ^ 23) : Number .double).text = "100000000000000000000000" := by decide +kernel

/-- Two neighbours equally near: the upper one in plain text, the even one in a report. -/
example : (ofRatio false 186597930194145025 100 : Number .double).text = "1865979301941450.3" ∧
    (ofRatio false 186597930194145025 100 : Number .double).reportText? .double =
      some "1865979301941450.2" := by decide +kernel

/-- The digits of a narrower format are fewer. -/
example : (ofRatio false 1 10 : Number .single).text = "0.1" := by decide +kernel

/-- Two places, from the exact value, ties to even. -/
example : (ofRatio false 1 8 : Number .single).textInHundredths = "0.12" ∧
    (ofRatio false 3 8 : Number .single).textInHundredths = "0.38" := by decide +kernel

/-- Both ends of the plain range of a report. -/
example : (ofRatio false 1 100000 : Number .double).reportText? .double = some "0.00001" ∧
    (ofRatio false 1 1000000 : Number .double).reportText? .double = some "1e-6" ∧
    (ofInt 1000000000000000 : Number .double).reportText? .double = some "1000000000000000.0" ∧
    (ofInt 10000000000000000 : Number .double).reportText? .double = some "1e+16" := by
  decide +kernel

end Number
end Quaked

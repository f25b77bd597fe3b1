import Quaked.Number.Numeral

/-!
# Binary floating-point numbers

A `Number F` is a number of the binary format `F`: a multiple of the format's smallest positive
number with a bounded count of significant bits, an infinity, or no number at all. Magnitudes are
kept as that multiple, their `units`, so order is the order of integers and no rounding hides
anywhere but in `Format.nearest`.

* `nearest_representable`, `ofDecimal_representable`: rounding gives a magnitude of the format, or
  one that is out of range.
-/

namespace Quaked

/-- How a tie between two neighbours is settled. -/
inductive Tie where
  | toEven
  | up
deriving DecidableEq, Repr

/-- The quotient rounded to the nearest whole number. -/
def roundDiv (tie : Tie) (num den : Nat) : Nat :=
  let floor := num / den
  let twice := 2 * (num % den)
  if twice < den then floor
  else if den < twice then floor + 1
  else match tie with
    | .toEven => if floor % 2 = 0 then floor else floor + 1
    | .up => floor + 1

/-- A binary floating-point format. -/
structure Format where
  /-- Significant bits, at least one. -/
  precision : Nat
  /-- The smallest positive number, the unit, is `2 ^ (-scale)`. -/
  scale : Nat
  /-- Finite magnitudes are below `2 ^ limit` units. -/
  limit : Nat
  precision_pos : 0 < precision := by decide

namespace Format

/-- Numbers of 64 bits, in which selectors and bounds calculate. -/
def double : Format where
  precision := 53
  scale := 1074
  limit := 2098

/-- Numbers of 32 bits, in which colors are kept. -/
def single : Format where
  precision := 24
  scale := 149
  limit := 277

variable (F : Format)

/-- How many units are one. -/
def one : Nat := Nat.pow 2 F.scale

/-- How many units are too many. -/
def bound : Nat := Nat.pow 2 F.limit

theorem bound_pos : 0 < F.bound := Nat.two_pow_pos _

/-- The power of two that the last significant bit of `n` units stands for. -/
def lastPlace (n : Nat) : Nat := n.log2 + 1 - F.precision

/-- Whether `n` units are a magnitude of the format. -/
def Representable (n : Nat) : Prop := Nat.pow 2 (F.lastPlace n) ∣ n ∧ n < F.bound

instance (n : Nat) : Decidable (F.Representable n) := inferInstanceAs (Decidable (_ ∧ _))

/-- The units nearest to the quotient `num / den`, ties to even. The result may be out of range. -/
def nearest (num den : Nat) : Nat :=
  let last := Nat.pow 2 (F.lastPlace (num / den))
  roundDiv .toEven num (den * last) * last

/-- The units nearest to a decimal. A decimal so large or so small that its size alone decides is
answered without computing its power of ten. -/
def ofDecimal (d : Decimal) : Nat :=
  let magnitude := d.length + d.exponent
  if d.coefficient = 0 then 0
  else if (F.limit : Int) < magnitude then F.bound
  else if magnitude + F.scale + 1 < 0 then 0
  else if 0 ≤ d.exponent then F.nearest (d.coefficient * Nat.pow 10 d.exponent.toNat * F.one) 1
  else F.nearest (d.coefficient * F.one) (Nat.pow 10 (-d.exponent).toNat)

/-! ### What rounding gives -/

theorem roundDiv_le (tie : Tie) (num den : Nat) : roundDiv tie num den ≤ num / den + 1 := by
  unfold roundDiv
  dsimp only
  repeat' split
  all_goals omega

theorem pow_lastPlace_dvd {m place : Nat} (h : m ≤ Nat.pow 2 F.precision) :
    Nat.pow 2 (F.lastPlace (m * Nat.pow 2 place)) ∣ m * Nat.pow 2 place := by
  simp only [Nat.pow_eq] at *
  rcases Nat.eq_zero_or_pos m with rfl | hm
  · simp
  have pos : m * 2 ^ place ≠ 0 := Nat.mul_ne_zero (by omega) (Nat.ne_of_gt (Nat.two_pow_pos _))
  rcases Nat.lt_or_eq_of_le h with hlt | rfl
  · have : (m * 2 ^ place).log2 < F.precision + place := by
      rw [Nat.log2_lt pos, Nat.pow_add]
      exact Nat.mul_lt_mul_of_pos_right hlt (Nat.two_pow_pos _)
    exact Nat.dvd_trans (Nat.pow_dvd_pow 2 (by unfold lastPlace; omega)) (Nat.dvd_mul_left ..)
  · have one := F.precision_pos
    rw [← Nat.pow_add, lastPlace, Nat.log2_two_pow]
    exact Nat.pow_dvd_pow 2 (by omega)

theorem div_lastPlace_lt (num den : Nat) :
    num / (den * Nat.pow 2 (F.lastPlace (num / den))) < Nat.pow 2 F.precision := by
  simp only [Nat.pow_eq]
  rw [← Nat.div_div_eq_div_mul, Nat.div_lt_iff_lt_mul (Nat.two_pow_pos _), ← Nat.pow_add]
  exact Nat.lt_of_lt_of_le Nat.lt_log2_self
    (Nat.pow_le_pow_right (by decide) (by unfold lastPlace; omega))

/-- Rounding a quotient gives a magnitude of the format, unless it is too large. -/
theorem nearest_representable {num den : Nat} (h : F.nearest num den < F.bound) :
    F.Representable (F.nearest num den) := by
  refine ⟨?_, h⟩
  apply F.pow_lastPlace_dvd
  have := roundDiv_le .toEven num (den * Nat.pow 2 (F.lastPlace (num / den)))
  have := F.div_lastPlace_lt num den
  omega

theorem zero_representable : F.Representable 0 := ⟨Nat.dvd_zero _, F.bound_pos⟩

/-- Reading a decimal gives a magnitude of the format, unless it is too large. -/
theorem ofDecimal_representable {d : Decimal} (h : F.ofDecimal d < F.bound) :
    F.Representable (F.ofDecimal d) := by
  revert h
  unfold ofDecimal
  dsimp only
  split
  · exact fun _ => F.zero_representable
  split
  · exact fun h => absurd h (Nat.lt_irrefl _)
  split
  · exact fun _ => F.zero_representable
  split
  · exact F.nearest_representable
  · exact F.nearest_representable

end Format

/-- A finite magnitude of a format. -/
structure Magnitude (F : Format) where
  units : Nat
  representable : F.Representable units
deriving DecidableEq

/-- A number of a format. There is one value that is no number, and there are two zeros. -/
inductive Number (F : Format) where
  | nan
  | infinite (negative : Bool)
  | finite (negative : Bool) (magnitude : Magnitude F)

namespace Number

variable {F : Format}

/-- Zero. -/
def zero : Number F := .finite false ⟨0, F.zero_representable⟩

/-- The number nearest to the quotient `num / den`, ties to even, infinite if that is too large. -/
def ofRatio (negative : Bool) (num den : Nat) : Number F :=
  if h : F.nearest (num * F.one) den < F.bound then
    .finite negative ⟨_, F.nearest_representable h⟩
  else .infinite negative

/-- The number nearest to an integer. -/
def ofInt (n : Int) : Number F := ofRatio (decide (n < 0)) n.natAbs 1

/-- The number nearest to a numeral, infinite if that is too large. -/
def ofNumeral (numeral : Numeral) : Number F :=
  if h : F.ofDecimal numeral.value < F.bound then
    .finite numeral.negative ⟨_, F.ofDecimal_representable h⟩
  else .infinite numeral.negative

/-- The number that a word names behind its sign: an infinity or no number. -/
def ofWord? (text : String) : Option (Number F) :=
  let (negative, word) := Numeral.sign text.toList
  let word := String.ofList (word.map Char.toLower)
  if word = "nan" then some .nan
  else if word = "inf" ∨ word = "infinity" then some (.infinite negative)
  else none

/-- The number that a text writes. -/
def ofString? (text : String) : Option (Number F) :=
  match Numeral.ofString? text with
  | some numeral => some (ofNumeral numeral)
  | none => ofWord? text

/-! ### Order and equality -/

/-- A number's place in the order, absent for what is no number. The two zeros share theirs. -/
def rank : Number F → Option Int
  | .nan => none
  | .infinite negative => some (Numeral.signed negative (F.bound))
  | .finite negative magnitude => some (Numeral.signed negative magnitude.units)

/-- Whether a relation holds between the places of two numbers. -/
def compares (relation : Int → Int → Bool) (x y : Number F) : Bool :=
  match x.rank, y.rank with
  | some a, some b => relation a b
  | _, _ => false

/-- Equality of numbers: what is no number equals nothing, and the two zeros are equal. -/
instance : BEq (Number F) := ⟨compares fun a b => a = b⟩

/-- Whether `x < y`. -/
def lt (x y : Number F) : Bool := compares (fun a b => a < b) x y

/-- Whether `x ≤ y`. -/
def le (x y : Number F) : Bool := compares (fun a b => a ≤ b) x y

/-- Whether this is no number. -/
def isNaN : Number F → Bool
  | .nan => true
  | _ => false

/-- The lesser of two numbers, the first if they are equal. What is no number loses. -/
def min (x y : Number F) : Number F :=
  if x.isNaN then y else if y.lt x then y else x

/-- The greater of two numbers, the first if they are equal. What is no number loses. -/
def max (x y : Number F) : Number F :=
  if x.isNaN then y else if x.lt y then y else x

/-! ### Arithmetic -/

/-- The number with the other sign. -/
def neg : Number F → Number F
  | .nan => .nan
  | .infinite negative => .infinite !negative
  | .finite negative magnitude => .finite (!negative) magnitude

instance : Neg (Number F) := ⟨neg⟩

/-- The number nearest to a number divided by a positive whole number. -/
def divNat (x : Number F) (n : Nat) : Number F :=
  match x with
  | .finite negative magnitude => ofRatio negative magnitude.units (n * F.one)
  | x => x

/-- The whole part of a finite number, the fraction cut off; an infinity is out of every range. -/
def truncate (low high : Int) : Number F → Int
  | .nan => 0
  | .infinite negative => if negative then low else high
  | .finite negative magnitude =>
    let whole := Numeral.signed negative (magnitude.units / F.one)
    if whole < low then low else if high < whole then high else whole

/-- The whole number below `bound` in size that this number is. -/
def integer? (bound : Nat) : Number F → Option Int
  | .finite negative magnitude =>
    let whole := magnitude.units / F.one
    if magnitude.units % F.one = 0 ∧ whole < bound then some (Numeral.signed negative whole)
    else none
  | _ => none

end Number
end Quaked

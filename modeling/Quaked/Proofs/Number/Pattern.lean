import Mathlib.Computability.RegularExpressions
import Quaked.Proofs.Number.Extent

/-!
# The language of numerals

Regular expressions for whole numbers and for numerals. The readers go through a text from left to right
and look at one character at a time, but as a whole a text is what they read exactly if it matches.

* `Numeral.readInteger?_iff`: a text is a whole number if it matches `[+-]?[0-9]+`.
* `Numeral.read?_iff`: a text is a numeral if it matches
  `[+-]?([0-9]+\.?[0-9]*|\.[0-9]+)([eE][+-]?[0-9]+)?`.
* `Number.ofString?_of_mem`: what matches it denotes a number.
-/

namespace Quaked

namespace Pattern

/-- One of the characters. -/
def oneOf : List Char → RegularExpression Char
  | [] => 0
  | c :: cs => .char c + oneOf cs

/-- What the pattern matches, or nothing. -/
def optional (r : RegularExpression Char) : RegularExpression Char := 1 + r

/-- A decimal digit. -/
def digit : RegularExpression Char := oneOf ['0', '1', '2', '3', '4', '5', '6', '7', '8', '9']

/-- Digits, perhaps none. -/
def digits : RegularExpression Char := digit.star

/-- Digits, at least one. -/
def someDigits : RegularExpression Char := digit * digits

/-- A sign, which may be missing. -/
def sign : RegularExpression Char := optional (oneOf ['+', '-'])

/-- A whole number. -/
def integer : RegularExpression Char := sign * someDigits

/-- Digits with an optional point, at least one of them. -/
def mantissa : RegularExpression Char :=
  someDigits * optional (.char '.') * digits + .char '.' * someDigits

/-- An exponent, which may be missing. -/
def exponent : RegularExpression Char := optional (oneOf ['e', 'E'] * integer)

/-- A numeral. -/
def decimal : RegularExpression Char := sign * (mantissa * exponent)

variable {w : List Char} {r s : RegularExpression Char}

/-! ### What patterns match -/

theorem mem_oneOf {cs : List Char} : w ∈ (oneOf cs).matches' ↔ ∃ c ∈ cs, w = [c] := by
  induction cs with
  | nil => exact ⟨False.elim, nofun⟩
  | cons c cs ih =>
    rw [oneOf, RegularExpression.matches'_add, Language.mem_add, ih, List.exists_mem_cons_iff]
    rfl

theorem mem_optional : w ∈ (optional r).matches' ↔ w = [] ∨ w ∈ r.matches' := by
  rw [optional, RegularExpression.matches'_add, Language.mem_add]
  rfl

theorem mem_mul : w ∈ (r * s).matches' ↔ ∃ a ∈ r.matches', ∃ b ∈ s.matches', a ++ b = w := by
  rw [RegularExpression.matches'_mul, Language.mem_mul]

theorem isDigit_iff {c : Char} :
    c.isDigit = true ↔ c ∈ ['0', '1', '2', '3', '4', '5', '6', '7', '8', '9'] := by
  constructor
  · intro digit
    have bounds : 48 ≤ c.val.toNat ∧ c.val.toNat ≤ 57 := by
      simpa [Char.isDigit, UInt32.le_iff_toNat_le] using digit
    have within : c.val.toNat ∈ List.range' 48 10 := List.mem_range'_1.2 (by omega)
    have all : ∀ n ∈ List.range' 48 10,
        Char.ofNat n ∈ ['0', '1', '2', '3', '4', '5', '6', '7', '8', '9'] := by decide
    have := all _ within
    rwa [show Char.ofNat c.val.toNat = c from Char.ofNat_toNat c] at this
  · intro among
    have all : ['0', '1', '2', '3', '4', '5', '6', '7', '8', '9'].all Char.isDigit = true := rfl
    exact List.all_eq_true.1 all c among

theorem mem_digit : w ∈ digit.matches' ↔ ∃ c, c.isDigit = true ∧ w = [c] := by
  simp only [digit, mem_oneOf, isDigit_iff]

theorem mem_digits : w ∈ digits.matches' ↔ ∀ c ∈ w, c.isDigit = true := by
  rw [digits, RegularExpression.matches'_star, Language.mem_kstar]
  constructor
  · rintro ⟨pieces, rfl, each⟩ c mem
    obtain ⟨piece, among, mem⟩ := List.mem_flatten.1 mem
    obtain ⟨d, digit, rfl⟩ := mem_digit.1 (each piece among)
    rwa [List.mem_singleton.1 mem]
  · intro all
    refine ⟨w.map fun c => [c], (List.flatMap_singleton' w).symm, ?_⟩
    intro piece among
    obtain ⟨c, mem, rfl⟩ := List.mem_map.1 among
    exact mem_digit.2 ⟨c, all c mem, rfl⟩

theorem mem_someDigits : w ∈ someDigits.matches' ↔ w ≠ [] ∧ ∀ c ∈ w, c.isDigit = true := by
  rw [someDigits, mem_mul]
  constructor
  · rintro ⟨a, first, b, more, rfl⟩
    obtain ⟨c, digit, rfl⟩ := mem_digit.1 first
    exact ⟨nofun, List.forall_mem_cons.2 ⟨digit, mem_digits.1 more⟩⟩
  · rintro ⟨some, all⟩
    obtain ⟨c, cs, rfl⟩ := List.exists_cons_of_ne_nil some
    obtain ⟨digit, more⟩ := List.forall_mem_cons.1 all
    exact ⟨[c], mem_digit.2 ⟨c, digit, rfl⟩, cs, mem_digits.2 more, rfl⟩

/-- A sign in front of what starts with none is the one that the readers pass. -/
theorem mem_sign_mul (unsigned : ∀ cs ∈ r.matches', (Numeral.sign cs).2 = cs) :
    w ∈ (sign * r).matches' ↔ (Numeral.sign w).2 ∈ r.matches' := by
  rw [mem_mul]
  constructor
  · rintro ⟨a, mark, b, body, rfl⟩
    rcases mem_optional.1 mark with rfl | mark
    · rwa [List.nil_append, unsigned b body]
    · obtain ⟨c, among, rfl⟩ := mem_oneOf.1 mark
      rcases List.mem_pair.1 among with rfl | rfl
      · exact body
      · exact body
  · unfold Numeral.sign
    split
    · intro body
      exact ⟨['+'], mem_optional.2 (.inr (mem_oneOf.2 ⟨'+', by simp, rfl⟩)), _, body, rfl⟩
    · intro body
      exact ⟨['-'], mem_optional.2 (.inr (mem_oneOf.2 ⟨'-', by simp, rfl⟩)), _, body, rfl⟩
    · intro body
      exact ⟨[], mem_optional.2 (.inl rfl), _, body, rfl⟩

/-- Digits with an optional point are digits alone, or digits on either side of a point. -/
theorem mem_mantissa :
    w ∈ mantissa.matches' ↔
      w ∈ someDigits.matches' ∨
        ∃ whole ∈ digits.matches', ∃ places ∈ digits.matches',
          whole ++ places ≠ [] ∧ whole ++ '.' :: places = w := by
  rw [mantissa, RegularExpression.matches'_add, Language.mem_add]
  constructor
  · rintro (front | behind)
    · obtain ⟨a, pointed, places, more, rfl⟩ := mem_mul.1 front
      obtain ⟨whole, some, point, may, rfl⟩ := mem_mul.1 pointed
      obtain ⟨nonempty, all⟩ := mem_someDigits.1 some
      rcases mem_optional.1 may with rfl | is
      · rw [List.append_nil]
        refine .inl (mem_someDigits.2 ⟨by simp [nonempty], ?_⟩)
        exact List.forall_mem_append.2 ⟨all, mem_digits.1 more⟩
      · obtain rfl : point = ['.'] := is
        exact .inr ⟨whole, mem_digits.2 all, places, more, by simp [nonempty], by simp⟩
    · obtain ⟨point, is, places, some, rfl⟩ := mem_mul.1 behind
      obtain rfl : point = ['.'] := is
      obtain ⟨nonempty, all⟩ := mem_someDigits.1 some
      exact .inr ⟨[], mem_digits.2 nofun, places, mem_digits.2 all, by simpa using nonempty, rfl⟩
  · rintro (some | ⟨whole, digits, places, digits', some, rfl⟩)
    · have front : w ∈ (someDigits * optional (.char '.')).matches' :=
        mem_mul.2 ⟨w, some, [], mem_optional.2 (.inl rfl), List.append_nil w⟩
      exact .inl (mem_mul.2 ⟨w, front, [], mem_digits.2 nofun, List.append_nil w⟩)
    · by_cases empty : whole = []
      · subst empty
        have behind := mem_someDigits.2 ⟨some, mem_digits.1 digits'⟩
        exact .inr (mem_mul.2 ⟨['.'], Set.mem_singleton _, places, behind, rfl⟩)
      · have front : whole ++ ['.'] ∈ (someDigits * optional (.char '.')).matches' :=
          mem_mul.2 ⟨whole, mem_someDigits.2 ⟨empty, mem_digits.1 digits⟩, ['.'],
            mem_optional.2 (.inr rfl), rfl⟩
        exact .inl (mem_mul.2 ⟨whole ++ ['.'], front, places, digits', by simp⟩)

end Pattern

/-! ### What the readers take -/

namespace Numeral

variable {cs w : List Char}

theorem digits_eq_of_mem (all : cs ∈ Pattern.digits.matches') : digits cs = (cs, []) := by
  simpa using digits_append (r := []) (Pattern.mem_digits.1 all) rfl

theorem digits_mem (cs : List Char) : (digits cs).1 ∈ Pattern.digits.matches' :=
  Pattern.mem_digits.2 (List.all_eq_true.1 List.all_takeWhile)

/-- Only digits leave nothing behind the digits. -/
theorem eq_of_digits_nil (h : (digits cs).2 = []) : (digits cs).1 = cs := by
  have whole := (takes_digits cs).split
  rw [h, List.append_nil] at whole
  exact whole.symm

/-- Digits start with no sign. -/
theorem sign_of_someDigits (some : cs ∈ Pattern.someDigits.matches') : (sign cs).2 = cs := by
  unfold sign
  split
  · exact absurd ((Pattern.mem_someDigits.1 some).2 '+' List.mem_cons_self) (by decide)
  · exact absurd ((Pattern.mem_someDigits.1 some).2 '-' List.mem_cons_self) (by decide)
  · rfl

/-- A text is a whole number if it matches the pattern of whole numbers. -/
theorem readInteger?_iff :
    (∃ n, readInteger? w = some (n, [])) ↔ w ∈ Pattern.integer.matches' := by
  rw [Pattern.integer, Pattern.mem_sign_mul fun _ => sign_of_someDigits]
  unfold readInteger?
  dsimp only
  constructor
  · rintro ⟨n, read⟩
    split at read
    · cases read
    rename_i positive
    have none : (digits (sign w).2).2 = [] := (Prod.mk.inj (Option.some.inj read)).2
    have all := digits_mem (sign w).2
    rw [eq_of_digits_nil none] at all positive
    exact Pattern.mem_someDigits.2 ⟨by simpa using positive, Pattern.mem_digits.1 all⟩
  · intro some
    obtain ⟨nonempty, all⟩ := Pattern.mem_someDigits.1 some
    rw [digits_eq_of_mem (Pattern.mem_digits.2 all), if_neg (by simpa using nonempty)]
    exact ⟨_, rfl⟩

/-- Behind an `e` there is a whole number. -/
theorem cons_mem_exponent {c : Char} (power : c ∈ ['e', 'E']) :
    c :: cs ∈ Pattern.exponent.matches' ↔ cs ∈ Pattern.integer.matches' := by
  rw [Pattern.exponent, Pattern.mem_optional, Pattern.mem_mul]
  constructor
  · rintro (none | ⟨a, mark, b, whole, same⟩)
    · cases none
    · obtain ⟨d, -, rfl⟩ := Pattern.mem_oneOf.1 mark
      cases same
      exact whole
  · intro whole
    exact .inr ⟨[c], Pattern.mem_oneOf.2 ⟨c, power, rfl⟩, cs, whole, rfl⟩

/-- A text is an exponent, or nothing, if it matches the pattern of exponents. -/
theorem readExponent?_iff :
    (∃ n, readExponent? w = some (n, [])) ↔ w ∈ Pattern.exponent.matches' := by
  unfold readExponent?
  split
  · rw [readInteger?_iff, cons_mem_exponent (by decide)]
  · rw [readInteger?_iff, cons_mem_exponent (by decide)]
  · rename_i noLower noUpper
    rw [Pattern.exponent, Pattern.mem_optional, Pattern.mem_mul]
    constructor
    · rintro ⟨n, read⟩
      exact .inl (Prod.mk.inj (Option.some.inj read)).2
    · rintro (rfl | ⟨a, mark, b, -, rfl⟩)
      · exact ⟨0, rfl⟩
      · obtain ⟨c, among, rfl⟩ := Pattern.mem_oneOf.1 mark
        rcases List.mem_pair.1 among with rfl | rfl
        · exact absurd rfl (noLower b)
        · exact absurd rfl (noUpper b)

/-- An exponent starts with neither a digit nor a point, so digits and a point in front of it are taken
up to it. -/
theorem exponent_stops (power : w ∈ Pattern.exponent.matches') :
    w.head?.all (!Char.isDigit ·) = true ∧ fraction w = ([], w) := by
  rcases Pattern.mem_optional.1 power with rfl | power
  · exact ⟨rfl, rfl⟩
  · obtain ⟨a, mark, b, -, rfl⟩ := Pattern.mem_mul.1 power
    obtain ⟨c, among, rfl⟩ := Pattern.mem_oneOf.1 mark
    rcases List.mem_pair.1 among with rfl | rfl
    · exact ⟨rfl, rfl⟩
    · exact ⟨rfl, rfl⟩

/-- Behind the digits there is a point with more digits, or nothing that belongs to them. -/
theorem fraction_cases (cs : List Char) :
    (∃ tail, cs = '.' :: tail ∧ fraction cs = digits tail) ∨ fraction cs = ([], cs) := by
  unfold fraction
  split
  · exact .inl ⟨_, rfl, rfl⟩
  · exact .inr rfl

theorem mem_mantissa_mul_exponent :
    cs ∈ (Pattern.mantissa * Pattern.exponent).matches' ↔
      (digits cs).1 ++ (fraction (digits cs).2).1 ≠ [] ∧
        (fraction (digits cs).2).2 ∈ Pattern.exponent.matches' := by
  rw [Pattern.mem_mul]
  constructor
  · rintro ⟨m, mantissa, power, exponent, rfl⟩
    obtain ⟨stop, noPoint⟩ := exponent_stops exponent
    rcases Pattern.mem_mantissa.1 mantissa with some | ⟨whole, all, places, all', some, rfl⟩
    · obtain ⟨nonempty, all⟩ := Pattern.mem_someDigits.1 some
      rw [digits_append all stop, noPoint]
      exact ⟨by simpa using nonempty, exponent⟩
    · have front : digits (whole ++ '.' :: (places ++ power)) = (whole, '.' :: (places ++ power)) :=
        digits_append (Pattern.mem_digits.1 all) rfl
      have behind : fraction ('.' :: (places ++ power)) = (places, power) :=
        digits_append (Pattern.mem_digits.1 all') stop
      rw [List.append_assoc, List.cons_append, front, behind]
      exact ⟨some, exponent⟩
  · rintro ⟨some, exponent⟩
    have split := (takes_digits cs).split
    have all := digits_mem cs
    rcases fraction_cases (digits cs).2 with ⟨tail, point, pointed⟩ | plain
    · have behind := (takes_digits tail).split
      rw [pointed] at some exponent
      rw [point, behind] at split
      have mantissa := Pattern.mem_mantissa.2 (.inr ⟨_, all, _, digits_mem tail, some, rfl⟩)
      refine ⟨_, mantissa, _, exponent, ?_⟩
      rw [List.append_assoc, List.cons_append, ← split]
    · rw [plain] at some exponent
      rw [List.append_nil] at some
      have digits := Pattern.mem_someDigits.2 ⟨some, Pattern.mem_digits.1 all⟩
      exact ⟨_, Pattern.mem_mantissa.2 (.inl digits), _, exponent, split.symm⟩

/-- Neither digits nor a point start with a sign. -/
theorem sign_of_mantissa (body : cs ∈ (Pattern.mantissa * Pattern.exponent).matches') :
    (sign cs).2 = cs := by
  obtain ⟨some, -⟩ := mem_mantissa_mul_exponent.1 body
  unfold sign
  split
  · exact absurd rfl some
  · exact absurd rfl some
  · rfl

/-- A text is a numeral if it matches the pattern of numerals. -/
theorem read?_iff : (∃ numeral, read? w = some (numeral, [])) ↔ w ∈ Pattern.decimal.matches' := by
  rw [Pattern.decimal, Pattern.mem_sign_mul fun _ => sign_of_mantissa, mem_mantissa_mul_exponent]
  unfold read?
  dsimp only
  split
  · rename_i none
    constructor
    · rintro ⟨numeral, read⟩
      cases read
    · rintro ⟨some, -⟩
      simp_all
  · rename_i some
    rw [← readExponent?_iff]
    constructor
    · rintro ⟨numeral, read⟩
      obtain ⟨⟨n, rest⟩, power, same⟩ := Option.map_eq_some_iff.1 read
      cases same
      exact ⟨by simpa using some, n, power⟩
    · rintro ⟨-, n, power⟩
      rw [power]
      exact ⟨_, rfl⟩

example : ["+.5", "2.", "-5.e+3"].all (Pattern.decimal.rmatch ·.toList) = true := by decide

/-- A whole number is written as a numeral. -/
theorem mem_decimal_of_integer (whole : w ∈ Pattern.integer.matches') :
    w ∈ Pattern.decimal.matches' := by
  obtain ⟨n, read⟩ := readInteger?_iff.2 whole
  exact read?_iff.1 (exists_of_readInteger? read)

theorem integer?_of_mem (whole : w ∈ Pattern.integer.matches') :
    ∃ n, integer? (String.ofList w) = some n := by
  obtain ⟨n, read⟩ := readInteger?_iff.2 whole
  exact ⟨n, by simp [integer?, read]⟩

end Numeral

/-- What is written as a numeral denotes a number in every format, and never none. -/
theorem Number.ofString?_of_mem {w : List Char} (numeral : w ∈ Pattern.decimal.matches') (F : Format) :
    ∃ x : Number F, ofString? (String.ofList w) = some x ∧ x.isNaN = false := by
  obtain ⟨numeral, read⟩ := Numeral.read?_iff.2 numeral
  refine ⟨ofNumeral numeral, by simp [ofString?, Numeral.ofString?, read], ?_⟩
  unfold ofNumeral
  split
  · rfl
  · rfl

end Quaked

import Quaked.Proofs.Definition.Flags
import Quaked.Proofs.Number.TwosComplement
import Quaked.Proofs.Number.Whole
import Quaked.Proofs.Selector.Lexemes
import Quaked.Proofs.Selector.Mismatch

/-!
# Bits in selectors

A selector tests a flag by the bits that its number has in common with an attribute. The attribute is a
string, its number is one of a floating-point format, and the bits are those of a word: nothing is lost on
the way for integers of 53 bits and a sign (`Value.Writes`). Of any other number a word is seen
(`Number.seen`), so there is always a result.

* `bitwise_and`, `bitwise_or`: the operators are those of two's complement on what is seen of both sides.
* `evaluate_bits`: they come to a number wherever both sides count as one.
* `bits_exact`: for integers they are exact, so a flag counts as set if and only if its bit is.
-/

namespace Quaked

open Text

/-! ### Integers as values -/

/-- A value is an integer: a number that is one, or its digits behind a sign, with white space around. -/
inductive Value.Writes : Value → Int → Prop where
  | number {x : Number .double} {n : Int} (is : x.IsInteger n) : Writes (.number x) n
  | string {front digits back : List Char} {n : Int} (before : ∀ c ∈ front, isSpace c = true)
    (behind : ∀ c ∈ back, isSpace c = true) (written : Numeral.integer? (String.ofList digits) = some n) :
    Writes (.string (String.ofList (front ++ digits ++ back))) n

theorem Fits.natAbs_le {k : Nat} {n : Int} (h : Fits k n) : n.natAbs ≤ Nat.pow 2 k := by
  unfold Fits at h
  omega

/-- No sign and no digit is white space. -/
theorem not_isSpace_of_numeral {c : Char} (h : c.isDigit = true ∨ c = '+' ∨ c = '-') :
    ¬ isSpace c = true := by
  rcases h with digit | rfl | rfl
  · exact Bool.eq_false_iff.1 (Selector.not_isSpace_of_isDigit digit)
  · decide
  · decide

/-- What writes an integer counts as the number that is the integer. -/
theorem Value.Writes.asNumber? {v : Value} {n : Int} (writes : v.Writes n) (fits : Fits 53 n) :
    ∃ x, v.asNumber? = some x ∧ x.IsInteger n := by
  cases writes with
  | number is => exact ⟨_, rfl, is⟩
  | @string front digits back _ before behind written =>
    have read : Numeral.readInteger? digits = some (n, []) := by
      unfold Numeral.integer? at written
      rw [String.toList_ofList] at written
      split at written
      · rename_i read
        cases written
        exact read
      · cases written
    obtain ⟨some, each⟩ := Numeral.mem_of_readInteger? read
    have trimmed : trim (front ++ digits ++ back) = digits :=
      trim_spaced before behind (List.head?_eq_some_head some) (List.getLast?_eq_some_getLast some)
        (not_isSpace_of_numeral (each _ (List.head_mem some)))
        (not_isSpace_of_numeral (each _ (List.getLast_mem some)))
    have room : Format.double.precision + Format.double.scale < Format.double.limit := by decide
    obtain ⟨x, is, integer⟩ := Number.isInteger_of_readInteger? room read fits.natAbs_le
    refine ⟨x, ?_, integer⟩
    rw [Value.asNumber?, String.toList_ofList, trimmed, is]

/-! ### Operators -/

namespace BinaryOp

theorem truncate_eq_ofInt_seen (x : Number .double) : Word.truncate x = BitVec.ofInt 64 x.seen :=
  congrArg (BitVec.ofInt 64) (Number.truncate_eq_seen (by decide) x)

/-- The bits in common are those of what is seen of both numbers. -/
theorem bitwise_and (x y : Number .double) :
    bitwise (· &&& ·) x y = .ofInt (Int.land x.seen y.seen) := by
  rw [bitwise, truncate_eq_ofInt_seen, truncate_eq_ofInt_seen,
    toInt_and_ofInt (fits_word_iff.2 x.seen_inRange) (fits_word_iff.2 y.seen_inRange)]

/-- So are the bits of either. -/
theorem bitwise_or (x y : Number .double) :
    bitwise (· ||| ·) x y = .ofInt (Int.lor x.seen y.seen) := by
  rw [bitwise, truncate_eq_ofInt_seen, truncate_eq_ofInt_seen,
    toInt_or_ofInt (fits_word_iff.2 x.seen_inRange) (fits_word_iff.2 y.seen_inRange)]

theorem numbers_eq_ok {op : BinaryOp} {v w : Value} {x y : Number .double}
    (left : v.asNumber? = some x) (right : w.asNumber? = some y) : op.numbers v w = .ok (x, y) := by
  rw [numbers, Value.numberFor, Value.numberFor, left, right]
  rfl

end BinaryOp

namespace Selector

variable {store : Store} {e f : Selector} {v w : Value}

/-- A selector comes to a number that is the integer. -/
def ComesTo (store : Store) (e : Selector) (n : Int) : Prop :=
  ∃ x, e.evaluate store = .ok (.number x) ∧ x.IsInteger n

/-- Where both sides have a value, the operators other than `||` and `&&` are applied to these. -/
theorem evaluate_of_operands {op : BinaryOp} (notOr : op ≠ .or) (notAnd : op ≠ .and)
    (left : e.evaluate store = .ok v) (right : f.evaluate store = .ok w) :
    (binary op e f).evaluate store = op.apply v w := by
  rw [evaluate_binary notOr notAnd, left, right]
  rfl

/-- Wherever both sides count as numbers, the operators on bits come to a number. -/
theorem evaluate_bits (left : e.evaluate store = .ok v) (right : f.evaluate store = .ok w)
    {x y : Number .double} (counts : v.asNumber? = some x) (counts' : w.asNumber? = some y) :
    (binary .bitAnd e f).evaluate store = .ok (.number (.ofInt (Int.land x.seen y.seen))) ∧
    (binary .bitOr e f).evaluate store = .ok (.number (.ofInt (Int.lor x.seen y.seen))) := by
  constructor
  · refine (evaluate_of_operands (by decide) (by decide) left right).trans ?_
    rw [BinaryOp.apply, BinaryOp.numbers_eq_ok counts counts', ← BinaryOp.bitwise_and]
    rfl
  · refine (evaluate_of_operands (by decide) (by decide) left right).trans ?_
    rw [BinaryOp.apply, BinaryOp.numbers_eq_ok counts counts', ← BinaryOp.bitwise_or]
    rfl

/-- For integers the operators on bits are exact. -/
theorem comesTo_bits (left : e.evaluate store = .ok v) (right : f.evaluate store = .ok w) {a b : Int}
    (writes : v.Writes a) (writes' : w.Writes b) (fits : Fits 53 a) (fits' : Fits 53 b) :
    ComesTo store (.binary .bitAnd e f) (Int.land a b) ∧
    ComesTo store (.binary .bitOr e f) (Int.lor a b) := by
  obtain ⟨x, counts, is⟩ := writes.asNumber? fits
  obtain ⟨y, counts', is'⟩ := writes'.asNumber? fits'
  obtain ⟨least, greatest⟩ := fits_word_iff.1 (fits.mono (by decide : 53 ≤ 63))
  obtain ⟨least', greatest'⟩ := fits_word_iff.1 (fits'.mono (by decide : 53 ≤ 63))
  obtain ⟨both, either⟩ := evaluate_bits left right counts counts'
  rw [Number.seen_of_isInteger is least greatest, Number.seen_of_isInteger is' least' greatest']
    at both either
  have room : Format.double.precision + Format.double.scale < Format.double.limit := by decide
  exact ⟨⟨_, both, Number.isInteger_ofInt room (fits_land fits fits').natAbs_le⟩,
    ⟨_, either, Number.isInteger_ofInt room (fits_lor fits fits').natAbs_le⟩⟩

/-- Powers of two up to the last exact one fit. -/
theorem fits_two_pow {k : Nat} (less : k < 53) : Fits 53 (Nat.pow 2 k : Nat) := by
  have powers : Nat.pow 2 k < Nat.pow 2 53 := Nat.pow_lt_pow_right (by decide) less
  unfold Fits
  omega

/-- What an integer has in common with a power of two counts as true if that bit is set. -/
theorem bit_test (left : e.evaluate store = .ok v) (right : f.evaluate store = .ok w) {a : Int} {k : Nat}
    (writes : v.Writes a) (fits : Fits 53 a) (less : k < 53) (writes' : w.Writes (Nat.pow 2 k : Nat)) :
    ∃ u, (binary .bitAnd e f).evaluate store = .ok u ∧ (u.isTruthy = true ↔ a.testBit k = true) := by
  obtain ⟨⟨x, evaluated, is⟩, -⟩ := comesTo_bits left right writes writes' fits (fits_two_pow less)
  exact ⟨_, evaluated, (Number.isTruthy_iff is).trans land_two_pow_ne_zero_iff⟩

/-- The operators on bits are exact for integers of 53 bits and a sign, whether they are written as numbers
or in strings: they come to the integer that has the bits in common, or those of either, which fits as well.
So a power of two tests its bit, and the value of an option of a header tests the flag. Whatever both sides
count as, there is a result, that of two's complement on the words that are seen of them. -/
theorem bits_exact (left : e.evaluate store = .ok v) (right : f.evaluate store = .ok w) :
    (∀ a b, v.Writes a → w.Writes b → Fits 53 a → Fits 53 b →
      ComesTo store (.binary .bitAnd e f) (Int.land a b) ∧ Fits 53 (Int.land a b) ∧
      ComesTo store (.binary .bitOr e f) (Int.lor a b) ∧ Fits 53 (Int.lor a b)) ∧
    (∀ a k, v.Writes a → Fits 53 a → k < 53 → w.Writes (Nat.pow 2 k : Nat) →
      ∃ u, (binary .bitAnd e f).evaluate store = .ok u ∧ (u.isTruthy = true ↔ a.testBit k = true)) ∧
    (∀ c header c' name options (bit : Nat) (option : FlagOption), Header.read c = .ok header c' →
      .flags name options ∈ header.attributes → options[bit]? = some option →
      ∀ a, v.Writes a → Fits 53 a → w.Writes option.value →
        ∃ u, (binary .bitAnd e f).evaluate store = .ok u ∧ (u.isTruthy = true ↔ a.testBit bit = true)) ∧
    ∀ x y, v.asNumber? = some x → w.asNumber? = some y →
      (binary .bitAnd e f).evaluate store = .ok (.number (.ofInt (Int.land x.seen y.seen))) ∧
      (binary .bitOr e f).evaluate store = .ok (.number (.ofInt (Int.lor x.seen y.seen))) := by
  refine ⟨?_, ?_, ?_, ?_⟩
  · intro a b writes writes' fits fits'
    obtain ⟨both, either⟩ := comesTo_bits left right writes writes' fits fits'
    exact ⟨both, fits_land fits fits', either, fits_lor fits fits'⟩
  · intro a k writes fits less writes'
    exact bit_test left right writes fits less writes'
  · intro c header c' name options bit option read mem is a writes fits writes'
    obtain ⟨less, value⟩ := Header.value_of_read read mem is
    rw [value] at writes'
    exact bit_test left right writes fits (by omega) writes'
  · intro x y counts counts'
    exact evaluate_bits left right counts counts'

/-- An attribute with white space around a sum of flags, and a negative integer. -/
theorem bits_exact_spawnflags :
    let store := Store.ofPairs [("spawnflags", " 2052\t")]
    (∃ u, (binary .bitAnd (.lookup "spawnflags") (.number (.ofInt 4))).evaluate store = .ok u ∧
      u.isTruthy = true) ∧
    ComesTo store (.binary .bitOr (.lookup "spawnflags") (.number (.ofInt (-8)))) (-4) := by
  intro store
  have looked : (lookup "spawnflags").evaluate store = .ok (.string " 2052\t") := rfl
  have literal (n : Int) : (number (.ofInt n)).evaluate store = .ok (.number (.ofInt n)) := by
    rw [number, evaluate_literal]
  have room : Format.double.precision + Format.double.scale < Format.double.limit := by decide
  have sum : Value.Writes (.string " 2052\t") 2052 := by
    have before : ∀ c ∈ [' '], isSpace c = true := List.forall_mem_singleton.2 (by decide)
    have behind : ∀ c ∈ ['\t'], isSpace c = true := List.forall_mem_singleton.2 (by decide)
    have digits : Numeral.integer? (String.ofList ['2', '0', '5', '2']) = some 2052 := by decide
    exact .string before behind digits
  have fits : Fits 53 2052 := by decide
  constructor
  · have bit : Value.Writes (.number (.ofInt 4)) (Nat.pow 2 2 : Nat) :=
      .number (Number.isInteger_ofInt room (by decide))
    obtain ⟨-, test, -⟩ := bits_exact looked (literal 4)
    obtain ⟨u, evaluated, set⟩ := test 2052 2 sum fits (by decide) bit
    exact ⟨u, evaluated, set.2 (by decide)⟩
  · have negative : Value.Writes (.number (.ofInt (-8))) (-8) :=
      .number (Number.isInteger_ofInt room (by decide))
    obtain ⟨exact, -⟩ := bits_exact looked (literal (-8))
    obtain ⟨-, -, either, -⟩ := exact 2052 (-8) sum negative fits (by decide)
    have value : Int.lor 2052 (-8) = -4 := by decide +kernel
    rwa [value] at either

end Selector
end Quaked

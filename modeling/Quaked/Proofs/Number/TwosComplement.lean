import Mathlib.Data.Int.Bitwise
import Quaked.Number.Word

/-!
# Two's complement

An integer has infinitely many bits, and from some place on they all tell its sign. It fits into `k` bits
and a sign if they do so from the place `k` on (`fits_iff_testBit`), so the operations on bits stay where
their operands are (`fits_land`, `fits_lor`), and on words they are what they are on integers
(`toInt_and_ofInt`, `toInt_or_ofInt`).
-/

namespace Quaked

/-- Whether an integer can be written with `k` bits and a sign. -/
def Fits (k : Nat) (n : Int) : Prop := -(Nat.pow 2 k : Nat) ≤ n ∧ n < (Nat.pow 2 k : Nat)

instance (k : Nat) (n : Int) : Decidable (Fits k n) := inferInstanceAs (Decidable (_ ∧ _))

theorem fits_ofNat {k m : Nat} : Fits k (.ofNat m) ↔ m < Nat.pow 2 k := by
  rw [Fits, Int.ofNat_eq_natCast]
  omega

theorem fits_negSucc {k m : Nat} : Fits k (.negSucc m) ↔ m < Nat.pow 2 k := by
  rw [Fits, Int.negSucc_eq]
  omega

/-- Words are what fits into 63 bits and a sign. -/
theorem fits_word_iff {n : Int} : Fits 63 n ↔ Word.least ≤ n ∧ n ≤ Word.greatest := by
  have pow : ((Nat.pow 2 63 : Nat) : Int) = 9223372036854775808 := by decide
  rw [Fits, pow]
  unfold Word.least Word.greatest
  omega

theorem Fits.mono {j k : Nat} {n : Int} (more : j ≤ k) (h : Fits j n) : Fits k n := by
  have powers : Nat.pow 2 j ≤ Nat.pow 2 k := Nat.pow_le_pow_right (by decide) more
  unfold Fits at *
  omega

/-! ### Bits -/

theorem lt_two_pow_iff_testBit {k m : Nat} : m < Nat.pow 2 k ↔ ∀ i, k ≤ i → m.testBit i = false := by
  constructor
  · intro less i more
    exact Nat.testBit_lt_two_pow (Nat.lt_of_lt_of_le less (Nat.pow_le_pow_right (by decide) more))
  · exact Nat.lt_pow_two_of_testBit m

theorem natCast_not_neg (m : Nat) : ¬ (m : Int) < 0 := Int.not_lt.2 (Int.natCast_nonneg m)

/-- The bits behind those that an integer fits into tell its sign. -/
theorem fits_iff_testBit {k : Nat} {n : Int} :
    Fits k n ↔ ∀ i, k ≤ i → n.testBit i = decide (n < 0) := by
  cases n with
  | ofNat m =>
    have sign : decide (Int.ofNat m < 0) = false := decide_eq_false (natCast_not_neg m)
    rw [fits_ofNat, lt_two_pow_iff_testBit, sign]
    rfl
  | negSucc m =>
    have sign : decide (Int.negSucc m < 0) = true := decide_eq_true (Int.negSucc_lt_zero m)
    rw [fits_negSucc, lt_two_pow_iff_testBit, sign]
    simp [Int.testBit]

theorem land_neg (a b : Int) : decide (Int.land a b < 0) = (decide (a < 0) && decide (b < 0)) := by
  cases a <;> cases b <;> simp [Int.land, Int.negSucc_lt_zero, natCast_not_neg]

theorem lor_neg (a b : Int) : decide (Int.lor a b < 0) = (decide (a < 0) || decide (b < 0)) := by
  cases a <;> cases b <;> simp [Int.lor, Int.negSucc_lt_zero, natCast_not_neg]

/-- Bits in common fit where both integers do. -/
theorem fits_land {k : Nat} {a b : Int} (left : Fits k a) (right : Fits k b) : Fits k (Int.land a b) := by
  rw [fits_iff_testBit] at *
  intro i behind
  rw [Int.testBit_land, left i behind, right i behind, land_neg]

/-- So do the bits of either. -/
theorem fits_lor {k : Nat} {a b : Int} (left : Fits k a) (right : Fits k b) : Fits k (Int.lor a b) := by
  rw [fits_iff_testBit] at *
  intro i behind
  rw [Int.testBit_lor, left i behind, right i behind, lor_neg]

/-- An integer has bits in common with a power of two if it has that bit. -/
theorem land_two_pow_ne_zero_iff {a : Int} {k : Nat} :
    Int.land a (Nat.pow 2 k : Nat) ≠ 0 ↔ a.testBit k = true := by
  have bits (i : Nat) :
      (Int.land a (Nat.pow 2 k : Nat)).testBit i = (a.testBit i && decide (k = i)) := by
    rw [Int.testBit_land]
    exact congrArg _ Nat.testBit_two_pow
  constructor
  · intro some
    by_contra unset
    refine some ?_
    have none (i : Nat) : (Int.land a (Nat.pow 2 k : Nat)).testBit i = false := by
      rw [bits]
      by_cases same : k = i
      · rw [← same, Bool.eq_false_iff.2 unset, Bool.false_and]
      · rw [decide_eq_false same, Bool.and_false]
    have positive : ¬ Int.land a (Nat.pow 2 k : Nat) < 0 := by
      have sign := land_neg a (Nat.pow 2 k : Nat)
      rw [decide_eq_false (natCast_not_neg _), Bool.and_false] at sign
      exact of_decide_eq_false sign
    obtain ⟨m, is⟩ := Int.eq_ofNat_of_zero_le (Int.not_lt.1 positive)
    rw [is] at none ⊢
    exact congrArg Nat.cast (Nat.zero_of_testBit_eq_false none)
  · intro set zero
    have bit := bits k
    rw [zero, set, decide_eq_true rfl] at bit
    simp [Int.testBit] at bit

/-! ### Words -/

theorem getLsbD_ofInt (w : Nat) (n : Int) (i : Nat) :
    (BitVec.ofInt w n).getLsbD i = (decide (i < w) && n.testBit i) := by
  cases n with
  | ofNat m => exact BitVec.getLsbD_ofNat w m i
  | negSucc m =>
    rw [BitVec.ofInt_negSucc_eq_not_ofNat, BitVec.getLsbD_not, BitVec.getLsbD_ofNat]
    by_cases within : i < w <;> simp [within, Int.testBit]

theorem ofInt_land (w : Nat) (a b : Int) :
    BitVec.ofInt w a &&& BitVec.ofInt w b = BitVec.ofInt w (Int.land a b) := by
  refine BitVec.eq_of_getLsbD_eq ?_
  intro i within
  rw [BitVec.getLsbD_and, getLsbD_ofInt, getLsbD_ofInt, getLsbD_ofInt, Int.testBit_land,
    decide_eq_true within]
  rfl

theorem ofInt_lor (w : Nat) (a b : Int) :
    BitVec.ofInt w a ||| BitVec.ofInt w b = BitVec.ofInt w (Int.lor a b) := by
  refine BitVec.eq_of_getLsbD_eq ?_
  intro i within
  rw [BitVec.getLsbD_or, getLsbD_ofInt, getLsbD_ofInt, getLsbD_ofInt, Int.testBit_lor,
    decide_eq_true within]
  rfl

theorem toInt_ofInt_of_fits {n : Int} (h : Fits 63 n) : (BitVec.ofInt 64 n).toInt = n := by
  obtain ⟨least, greatest⟩ := fits_word_iff.1 h
  unfold Word.least at least
  unfold Word.greatest at greatest
  rw [BitVec.toInt_ofInt]
  exact Int.bmod_eq_of_le_mul_two (by omega) (by omega)

/-- On words that hold them, the bits in common of two integers are those of the integers. -/
theorem toInt_and_ofInt {a b : Int} (left : Fits 63 a) (right : Fits 63 b) :
    (BitVec.ofInt 64 a &&& BitVec.ofInt 64 b).toInt = Int.land a b := by
  rw [ofInt_land, toInt_ofInt_of_fits (fits_land left right)]

/-- So are the bits of either. -/
theorem toInt_or_ofInt {a b : Int} (left : Fits 63 a) (right : Fits 63 b) :
    (BitVec.ofInt 64 a ||| BitVec.ofInt 64 b).toInt = Int.lor a b := by
  rw [ofInt_lor, toInt_ofInt_of_fits (fits_lor left right)]

end Quaked

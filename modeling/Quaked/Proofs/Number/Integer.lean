import Quaked.Number.Word
import Quaked.Proofs.Number.Spelling

/-!
# Integers as numbers

An integer of 64 bits is a finite number (`isFinite_ofInt`), and no integer is a zero with a sign
(`unsignedZero_ofInt`). Both follow from how far rounding can move a quotient. An integer of no more than
the significant bits is not moved at all (`nearest_whole`).
-/

namespace Quaked

namespace Format

variable (F : Format)

/-- The last significant bit of a number of units is worth no more than the units. -/
theorem pow_lastPlace_le {n : Nat} (nonzero : n ≠ 0) : Nat.pow 2 (F.lastPlace n) ≤ n := by
  have place : F.lastPlace n ≤ n.log2 := by
    have := F.precision_pos
    unfold lastPlace
    omega
  exact Nat.le_trans (Nat.pow_le_pow_right (by decide) place) (Nat.log2_self_le nonzero)

/-- Rounding at most doubles. -/
theorem nearest_le (n : Nat) : F.nearest n 1 ≤ 2 * n := by
  by_cases nonzero : n = 0
  · subst nonzero
    simp [nearest, roundDiv]
  have last := F.pow_lastPlace_le nonzero
  have floor := Nat.div_mul_le_self n (Nat.pow 2 (F.lastPlace n))
  have rounded := roundDiv_le .toEven n (Nat.pow 2 (F.lastPlace n))
  unfold nearest
  dsimp only
  rw [Nat.div_one, Nat.one_mul]
  calc roundDiv .toEven n (Nat.pow 2 (F.lastPlace n)) * Nat.pow 2 (F.lastPlace n)
      ≤ (n / Nat.pow 2 (F.lastPlace n) + 1) * Nat.pow 2 (F.lastPlace n) :=
        Nat.mul_le_mul_right _ rounded
    _ = n / Nat.pow 2 (F.lastPlace n) * Nat.pow 2 (F.lastPlace n) + Nat.pow 2 (F.lastPlace n) := by
        rw [Nat.add_mul, Nat.one_mul]
    _ ≤ 2 * n := by omega

/-- What is not zero is not rounded to zero. -/
theorem nearest_pos {n : Nat} (nonzero : n ≠ 0) : 0 < F.nearest n 1 := by
  have positive : 0 < Nat.pow 2 (F.lastPlace n) := Nat.two_pow_pos _
  have floor : 0 < n / Nat.pow 2 (F.lastPlace n) :=
    Nat.div_pos (F.pow_lastPlace_le nonzero) positive
  have rounded := roundDiv_eq_or .toEven n (Nat.pow 2 (F.lastPlace n))
  unfold nearest
  dsimp only
  rw [Nat.div_one, Nat.one_mul]
  exact Nat.mul_pos (by omega) positive

/-- A whole number of no more significant bits than the format has is not rounded, if there is room. -/
theorem nearest_whole {n : Nat} (room : F.precision + F.scale < F.limit)
    (small : n ≤ Nat.pow 2 F.precision) :
    F.nearest (n * F.one) 1 = n * F.one ∧ n * F.one < F.bound := by
  have bound : n * F.one < F.bound := by
    calc n * F.one ≤ 2 ^ F.precision * 2 ^ F.scale := Nat.mul_le_mul_right _ small
      _ = 2 ^ (F.precision + F.scale) := (Nat.pow_add _ _ _).symm
      _ < 2 ^ F.limit := Nat.pow_lt_pow_right (by decide) room
  have same := F.nearest_of_representable ⟨F.pow_lastPlace_dvd small, bound⟩ Nat.one_pos
  rw [Nat.mul_one] at same
  exact ⟨same, bound⟩

end Format

namespace Number

variable {F : Format}

/-- An integer of 64 bits is a finite number of every format that has room for it. -/
theorem isFinite_ofInt (room : F.scale + 64 < F.limit) {n : Int} (least : Word.least ≤ n)
    (greatest : n ≤ Word.greatest) : (ofInt n : Number F).isFinite = true := by
  have size : n.natAbs ≤ 2 ^ 63 := by
    unfold Word.least at least
    unfold Word.greatest at greatest
    omega
  have twice : 2 * 2 ^ 63 = 2 ^ 64 := by decide
  have bound : F.nearest (n.natAbs * F.one) 1 < F.bound := by
    calc F.nearest (n.natAbs * F.one) 1
        ≤ 2 * (n.natAbs * F.one) := F.nearest_le _
      _ ≤ 2 * (2 ^ 63 * 2 ^ F.scale) := Nat.mul_le_mul_left 2 (Nat.mul_le_mul_right _ size)
      _ = 2 ^ (64 + F.scale) := by rw [← Nat.mul_assoc, twice, Nat.pow_add]
      _ < 2 ^ F.limit := Nat.pow_lt_pow_right (by decide) (by omega)
  unfold ofInt ofRatio
  rw [dif_pos bound]
  rfl

/-- No integer is a zero with a sign. -/
theorem unsignedZero_ofInt (n : Int) : (ofInt n : Number F).unsignedZero = ofInt n := by
  unfold ofInt ofRatio
  split
  · by_cases negative : n < 0
    · have nonzero : n.natAbs * F.one ≠ 0 :=
        Nat.mul_ne_zero (by omega) (Nat.ne_of_gt F.one_pos)
      have units := Nat.ne_of_gt (F.nearest_pos nonzero)
      simp [unsignedZero, units]
    · simp [unsignedZero, negative]
  · rfl

end Number

/-- The integers of 64 bits are the words that are written. -/
theorem Word.ofString?_eq_some_iff {text : String} {n : Int} :
    Word.ofString? text = some n ↔
      Numeral.integer? text = some n ∧ Word.least ≤ n ∧ n ≤ Word.greatest := by
  rw [Word.ofString?, Option.filter_eq_some_iff, Bool.and_eq_true, decide_eq_true_eq,
    decide_eq_true_eq]

end Quaked

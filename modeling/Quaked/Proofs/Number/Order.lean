import Quaked.Proofs.Number.Integer

/-!
# Rounding keeps order

The greater of two quotients is not rounded to the lesser number (`Format.nearest_mono`). Where both
have the same last place this is how quotients round to whole numbers; where the last place of the
greater one is further to the left, the lesser one is rounded to at most the power of two that the
greater one is not below.
-/

namespace Quaked

theorem roundDiv_mono (tie : Tie) (den : Nat) {a b : Nat} (h : a ≤ b) :
    roundDiv tie a den ≤ roundDiv tie b den := by
  have quotients : a / den ≤ b / den := Nat.div_le_div_right h
  rcases Nat.lt_or_eq_of_le quotients with less | same
  · have most := Format.roundDiv_le tie a den
    rcases roundDiv_eq_or tie b den with is | is <;> omega
  -- in front of the same whole number the remainders are in order
  · have remainders : a % den ≤ b % den := by
      have splitA := Nat.div_add_mod a den
      have splitB := Nat.div_add_mod b den
      rw [same] at splitA
      omega
    unfold roundDiv
    dsimp only
    rw [same]
    repeat' split
    all_goals omega

namespace Format

variable (F : Format)

theorem lastPlace_mono {a b : Nat} (h : a ≤ b) : F.lastPlace a ≤ F.lastPlace b := by
  have bits : a.log2 ≤ b.log2 := by
    by_cases zero : a = 0
    · subst zero
      exact Nat.zero_le _
    · have nonzero : b ≠ 0 := by omega
      exact (Nat.le_log2 nonzero).2 (Nat.le_trans (Nat.log2_self_le zero) h)
  unfold lastPlace
  omega

/-- A quotient is rounded to no more than the power of two behind its significant bits. -/
theorem nearest_le_pow (num den : Nat) :
    F.nearest num den ≤ Nat.pow 2 (F.precision + F.lastPlace (num / den)) := by
  have rounded := roundDiv_le .toEven num (den * Nat.pow 2 (F.lastPlace (num / den)))
  have less := F.div_lastPlace_lt num den
  unfold nearest
  dsimp only
  simp only [Nat.pow_eq] at *
  rw [Nat.pow_add]
  exact Nat.mul_le_mul_right _ (Nat.le_trans rounded less)

/-- With a last place to spare a quotient has all significant bits in front of it. -/
theorem pow_le_floor {num den : Nat} (spare : 0 < F.lastPlace (num / den)) :
    Nat.pow 2 (F.precision - 1) ≤ num / (den * Nat.pow 2 (F.lastPlace (num / den))) := by
  have one := F.precision_pos
  have bits : (num / den).log2 = F.precision - 1 + F.lastPlace (num / den) := by
    unfold lastPlace at *
    omega
  have nonzero : num / den ≠ 0 := by
    intro zero
    rw [zero, lastPlace, Nat.log2_zero] at spare
    omega
  have high := Nat.log2_self_le nonzero
  simp only [Nat.pow_eq] at *
  rw [← Nat.div_div_eq_div_mul, Nat.le_div_iff_mul_le (Nat.two_pow_pos _), ← Nat.pow_add]
  rw [bits] at high
  exact high

/-- With a last place to spare a quotient is rounded to no less than its highest bit. -/
theorem pow_le_nearest {num den : Nat} (spare : 0 < F.lastPlace (num / den)) :
    Nat.pow 2 (F.precision - 1 + F.lastPlace (num / den)) ≤ F.nearest num den := by
  have floor := F.pow_le_floor spare
  have rounded : num / (den * 2 ^ F.lastPlace (num / den)) ≤
      roundDiv .toEven num (den * 2 ^ F.lastPlace (num / den)) := by
    rcases roundDiv_eq_or .toEven num (den * 2 ^ F.lastPlace (num / den)) with is | is <;> omega
  unfold nearest
  dsimp only
  simp only [Nat.pow_eq] at *
  rw [Nat.pow_add]
  exact Nat.mul_le_mul_right _ (Nat.le_trans floor rounded)

theorem nearest_mono (den : Nat) {a b : Nat} (h : a ≤ b) : F.nearest a den ≤ F.nearest b den := by
  have quotients : a / den ≤ b / den := Nat.div_le_div_right h
  rcases Nat.lt_or_eq_of_le (F.lastPlace_mono quotients) with further | same
  · have one := F.precision_pos
    have spare : 0 < F.lastPlace (b / den) := Nat.lt_of_le_of_lt (Nat.zero_le _) further
    calc F.nearest a den
        ≤ Nat.pow 2 (F.precision + F.lastPlace (a / den)) := F.nearest_le_pow a den
      _ ≤ Nat.pow 2 (F.precision - 1 + F.lastPlace (b / den)) :=
        Nat.pow_le_pow_right (by decide) (by omega)
      _ ≤ F.nearest b den := F.pow_le_nearest spare
  · unfold nearest
    dsimp only
    rw [same]
    exact Nat.mul_le_mul_right _ (roundDiv_mono _ _ h)

end Format

end Quaked

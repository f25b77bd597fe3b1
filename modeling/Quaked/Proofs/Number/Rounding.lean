import Quaked.Number.Shortest

/-!
# Rounding goes by value

Reading a decimal does not depend on how its value is split into a coefficient and a power of ten
(`ofDecimal_shift`), and a magnitude of the format is read from every decimal that equals it
(`ofDecimal_exact`, `ofDecimal_whole`). So the search for the shortest decimal always ends with one
that is read back (`ofDecimal_shortest`).
-/

namespace Quaked

/-! ### Quotients -/

theorem roundDiv_mul (tie : Tie) (num den : Nat) {k : Nat} (positive : 0 < k) :
    roundDiv tie (num * k) (den * k) = roundDiv tie num den := by
  have less : 2 * (num % den * k) < den * k ↔ 2 * (num % den) < den := by
    rw [← Nat.mul_assoc, Nat.mul_lt_mul_right positive]
  have more : den * k < 2 * (num % den * k) ↔ den < 2 * (num % den) := by
    rw [← Nat.mul_assoc, Nat.mul_lt_mul_right positive]
  unfold roundDiv
  simp only [Nat.mul_div_mul_right _ _ positive, Nat.mul_mod_mul_right, less, more]

/-- A quotient without a remainder is not rounded. -/
theorem roundDiv_mul_self (tie : Tie) (n : Nat) {den : Nat} (positive : 0 < den) :
    roundDiv tie (n * den) den = n := by
  unfold roundDiv
  simp [Nat.mul_div_cancel n positive, positive]

/-- What rounding a quotient gives is one of its two neighbours. -/
theorem roundDiv_eq_or (tie : Tie) (num den : Nat) :
    roundDiv tie num den = num / den ∨ roundDiv tie num den = num / den + 1 := by
  unfold roundDiv
  cases tie with
  | toEven =>
    dsimp only
    split
    · exact .inl rfl
    · split
      · exact .inr rfl
      · split
        · exact .inl rfl
        · exact .inr rfl
  | up =>
    dsimp only
    split
    · exact .inl rfl
    · split
      · exact .inr rfl
      · exact .inr rfl

/-! ### Lengths -/

namespace Decimal

/-- The power of ten that a coefficient other than zero reaches. -/
theorem pow_le_coefficient {d : Decimal} (h : d.coefficient ≠ 0) :
    Nat.pow 10 (d.length - 1) ≤ d.coefficient := by
  rw [Nat.pow_eq]
  rcases Nat.eq_zero_or_pos (d.length - 1) with one | more
  · rw [one, Nat.pow_zero]
    exact Nat.one_le_iff_ne_zero.2 h
  · rw [← Nat.not_lt, ← Nat.length_toDigits_le_iff (by decide) more]
    unfold length at *
    omega

/-- A power of ten lengthens a coefficient by as many digits. -/
theorem length_mul_pow {c : Nat} (h : c ≠ 0) (k : Nat) (e e' : Int) :
    (Decimal.mk (c * Nat.pow 10 k) e).length = (Decimal.mk c e').length + k := by
  rw [Nat.pow_eq]
  have digits (j : Nat) (positive : 0 < j) :
      (Nat.toDigits 10 (c * 10 ^ k)).length ≤ j + k ↔ (Nat.toDigits 10 c).length ≤ j := by
    rw [Nat.length_toDigits_le_iff (by decide) (by omega),
      Nat.length_toDigits_le_iff (by decide) positive, Nat.pow_add,
      Nat.mul_lt_mul_right (Nat.pow_pos (by decide))]
  have positive : 0 < (Nat.toDigits 10 c).length := Nat.length_toDigits_pos
  have upper := (digits _ positive).2 (Nat.le_refl _)
  have lower : (Nat.toDigits 10 c).length + k ≤ (Nat.toDigits 10 (c * 10 ^ k)).length := by
    rcases Nat.eq_zero_or_pos ((Nat.toDigits 10 c).length - 1) with one | more
    · rcases Nat.eq_zero_or_pos k with rfl | some
      · simp
      · have : ¬ (Nat.toDigits 10 (c * 10 ^ k)).length ≤ k := by
          rw [Nat.length_toDigits_le_iff (by decide) some, Nat.not_lt]
          exact Nat.le_mul_of_pos_left _ (Nat.pos_of_ne_zero h)
        omega
    · have := digits _ more
      omega
  exact Nat.le_antisymm upper lower

end Decimal

namespace Format

variable (F : Format)

theorem nearest_mul (num den : Nat) {k : Nat} (positive : 0 < k) :
    F.nearest (num * k) (den * k) = F.nearest num den := by
  unfold nearest
  rw [Nat.mul_div_mul_right _ _ positive]
  dsimp only
  rw [Nat.mul_right_comm den k, roundDiv_mul _ _ _ positive]

/-- A magnitude of the format is nearest to itself. -/
theorem nearest_of_representable {n den : Nat} (h : F.Representable n) (positive : 0 < den) :
    F.nearest (n * den) den = n := by
  obtain ⟨q, same⟩ := h.1
  have last : 0 < Nat.pow 2 (F.lastPlace n) := Nat.two_pow_pos _
  unfold nearest
  rw [Nat.mul_div_cancel n positive]
  dsimp only
  have split : n * den = q * (den * Nat.pow 2 (F.lastPlace n)) := by
    conv => lhs; rw [same]
    rw [Nat.mul_comm (Nat.pow 2 _) q, Nat.mul_assoc, Nat.mul_comm (Nat.pow 2 _) den]
  rw [split, roundDiv_mul_self _ _ (Nat.mul_pos positive last), Nat.mul_comm, ← same]

/-- A power of ten may stand in the coefficient or in the exponent. -/
theorem ofDecimal_shift (c k : Nat) (e : Int) :
    F.ofDecimal ⟨c * Nat.pow 10 k, e⟩ = F.ofDecimal ⟨c, e + k⟩ := by
  rw [Nat.pow_eq]
  by_cases zero : c = 0
  · simp [ofDecimal, zero]
  have nonzero : c * 10 ^ k ≠ 0 := Nat.mul_ne_zero zero (Nat.ne_of_gt (Nat.pow_pos (by decide)))
  have magnitude : ((Decimal.mk (c * 10 ^ k) e).length : Int) + e =
      (Decimal.mk c (e + k)).length + (e + k) := by
    rw [← Nat.pow_eq, Decimal.length_mul_pow zero k e (e + k)]
    omega
  unfold ofDecimal
  simp only [zero, nonzero, if_false, magnitude]
  congr 2
  by_cases whole : 0 ≤ e
  · have whole' : 0 ≤ e + k := by omega
    have power : (e + k).toNat = k + e.toNat := by omega
    rw [if_pos whole, if_pos whole', power, Nat.pow_eq, Nat.pow_eq, Nat.pow_add, Nat.mul_assoc c]
  rw [if_neg whole]
  by_cases whole' : 0 ≤ e + k
  · have power : k = (e + k).toNat + (-e).toNat := by omega
    rw [if_pos whole', Nat.pow_eq, Nat.pow_eq]
    conv => lhs; rw [power, Nat.pow_add]
    rw [← F.nearest_mul (c * 10 ^ (e + k).toNat * F.one) 1 (Nat.pow_pos (n := (-e).toNat) (by decide : 0 < 10)),
      Nat.one_mul]
    congr 1
    rw [← Nat.mul_assoc, Nat.mul_right_comm]
  · have power : (-e).toNat = (-(e + k)).toNat + k := by omega
    rw [if_neg whole', power, Nat.pow_eq, Nat.pow_eq, Nat.pow_add,
      ← F.nearest_mul (c * F.one) (10 ^ (-(e + k)).toNat) (Nat.pow_pos (n := k) (by decide : 0 < 10)),
      Nat.mul_right_comm]

end Format

namespace Magnitude

variable {F : Format} (m : Magnitude F)

/-- The exact decimal of a magnitude is read as it. -/
theorem ofDecimal_exact : F.ofDecimal m.exact = m.units := by
  obtain ⟨n, representable⟩ := m
  by_cases zero : n = 0
  · simp [exact, Format.ofDecimal, zero]
  have five : 0 < 5 ^ F.scale := Nat.pow_pos (by decide)
  have nonzero : n * 5 ^ F.scale ≠ 0 := Nat.mul_ne_zero zero (Nat.ne_of_gt five)
  -- It is too small for the first guard, and has too many digits for the second.
  have small : ¬ (F.limit : Int) < (Decimal.mk (n * 5 ^ F.scale) (-F.scale)).length + -F.scale := by
    intro large
    have reach := Decimal.pow_le_coefficient (d := ⟨n * 5 ^ F.scale, -F.scale⟩) nonzero
    rw [Nat.pow_eq] at reach
    have long : F.limit + F.scale ≤
        (Decimal.mk (n * 5 ^ F.scale) (-F.scale)).length - 1 := by omega
    have bound : n * 5 ^ F.scale < 2 ^ F.limit * 5 ^ F.scale :=
      Nat.mul_lt_mul_of_pos_right representable.2 five
    have wide : 2 ^ F.limit * 5 ^ F.scale ≤ 10 ^ (F.limit + F.scale) := by
      rw [Nat.pow_add]
      exact Nat.mul_le_mul (Nat.pow_le_pow_left (by decide) _) (Nat.pow_le_pow_left (by decide) _)
    have := Nat.pow_le_pow_right (n := 10) (by decide) long
    exact Nat.lt_irrefl _ (Nat.lt_of_lt_of_le bound (Nat.le_trans wide (Nat.le_trans this reach)))
  have scaled : n * 5 ^ F.scale * F.one = n * 10 ^ F.scale := by
    rw [Format.one, Nat.pow_eq, Nat.mul_assoc, ← Nat.mul_pow]
  unfold exact Format.ofDecimal
  simp only [Nat.pow_eq, nonzero, if_false, if_neg small]
  rw [if_neg (by omega)]
  by_cases unscaled : F.scale = 0
  · have whole : n * 5 ^ F.scale * 10 ^ (-(F.scale : Int)).toNat * F.one = n * 1 := by
      simp [unscaled, Format.one]
    rw [if_pos (by omega), whole]
    exact F.nearest_of_representable representable Nat.one_pos
  · have power : (- -(F.scale : Int)).toNat = F.scale := by omega
    rw [if_neg (by omega), scaled, power]
    exact F.nearest_of_representable representable (Nat.pow_pos (by decide))

/-- A magnitude that is a whole number is read from its digits. -/
theorem ofDecimal_whole {n : Nat} (whole : m.units = n * F.one) : F.ofDecimal ⟨n, 0⟩ = m.units := by
  have same : m.exact = ⟨n * 10 ^ F.scale, -F.scale⟩ := by
    unfold exact
    rw [whole, Format.one, Nat.pow_eq, Nat.pow_eq, Nat.mul_assoc, ← Nat.mul_pow]
  have shifted := F.ofDecimal_shift n F.scale (-F.scale)
  rw [Nat.pow_eq, ← same, ofDecimal_exact] at shifted
  rw [shifted]
  congr 2
  omega

theorem reads_exact : m.reads m.exact = true := by
  rw [reads, ofDecimal_exact]
  exact decide_eq_true rfl

theorem reads_shortestFrom (tie : Tie) (dropped : Nat) :
    m.reads (m.shortestFrom tie dropped) = true := by
  induction dropped with
  | zero => exact m.reads_exact
  | succ dropped ih =>
    unfold shortestFrom
    dsimp only
    split
    · rename_i below
      split
      · rename_i above
        rcases roundDiv_eq_or tie m.exact.coefficient (Nat.pow 10 (dropped + 1)) with same | same
        · rw [same]
          exact below
        · rw [same]
          exact above
      · exact below
    · split
      · rename_i above
        exact above
      · exact ih

/-- The shortest decimal is read back. -/
theorem ofDecimal_shortest (tie : Tie) : F.ofDecimal (m.shortest tie) = m.units :=
  of_decide_eq_true (m.reads_shortestFrom tie _)

end Magnitude
end Quaked

import Quaked.Proofs.Number.Order

/-!
# Rounding is to the nearest

Between two neighbouring multiples of the last place of a quotient there is no magnitude of the format
(`Format.le_or_le_of_representable`). So the one that the quotient is rounded to is as near as any, and
where another one is equally near it is the even multiple of the distance between the two.

* `Magnitude.isNearest_of_units`: the magnitude that a quotient is rounded to is the nearest.
* `Number.ofRatio_of_le`: a quotient of no more than one is rounded to a finite number.
-/

namespace Quaked

/-! ### Quotients -/

/-- Rounding goes down below the half and up above it, and at the half to what is even. -/
theorem roundDiv_cases (num den : Nat) :
    (2 * (num % den) ≤ den ∧ roundDiv .toEven num den = num / den ∨
      den ≤ 2 * (num % den) ∧ roundDiv .toEven num den = num / den + 1) ∧
    (2 * (num % den) = den → roundDiv .toEven num den % 2 = 0) := by
  unfold roundDiv
  dsimp only
  repeat' split
  all_goals omega

/-! ### Distances -/

namespace Magnitude

variable {F : Format}

/-- How far a magnitude is from the quotient `num / den`, as a multiple of the unit over `den`. -/
def distance (m : Magnitude F) (num den : Nat) : Nat :=
  (m.units * den - num * Nat.pow 2 F.scale) + (num * Nat.pow 2 F.scale - m.units * den)

/-- No magnitude of the format is nearer to the quotient `num / den`, and where another one is equally
near this is the even multiple of the distance between the two. -/
structure IsNearest (m : Magnitude F) (num den : Nat) : Prop where
  least : ∀ other : Magnitude F, m.distance num den ≤ other.distance num den
  even : ∀ other : Magnitude F, other.units ≠ m.units →
    other.distance num den = m.distance num den →
      2 * ((m.units - other.units) + (other.units - m.units)) ∣ m.units

end Magnitude

/-! ### Neighbours -/

namespace Format

variable (F : Format)

/-- No magnitude lies between the multiples of the last place that a quotient lies between. -/
theorem le_or_le_of_representable (num den : Nat) {n : Nat} (h : F.Representable n) :
    n ≤ num / (den * Nat.pow 2 (F.lastPlace (num / den))) * Nat.pow 2 (F.lastPlace (num / den)) ∨
      (num / (den * Nat.pow 2 (F.lastPlace (num / den))) + 1) * Nat.pow 2 (F.lastPlace (num / den)) ≤ n := by
  have floor : 0 < F.lastPlace (num / den) → Nat.pow 2 (F.precision - 1) ≤
      num / (den * Nat.pow 2 (F.lastPlace (num / den))) := F.pow_le_floor
  generalize num / (den * Nat.pow 2 (F.lastPlace (num / den))) = q at *
  generalize F.lastPlace (num / den) = place at *
  refine Decidable.or_iff_not_imp_left.2 fun above => ?_
  have last : Nat.pow 2 place ∣ n := by
    rcases Nat.eq_zero_or_pos place with rfl | spare
    · exact Nat.one_dvd n
    -- with as many bits as the quotient the magnitude has no place further to the right
    · have one := F.precision_pos
      have high : 2 ^ (F.precision - 1 + place) ≤ n := by
        rw [Nat.pow_add]
        exact Nat.le_trans (Nat.mul_le_mul_right _ (floor spare)) (Nat.le_of_not_le above)
      have nonzero : n ≠ 0 := by
        have := Nat.two_pow_pos (F.precision - 1 + place)
        omega
      have bits := (Nat.le_log2 nonzero).2 high
      refine Nat.dvd_trans (Nat.pow_dvd_pow 2 ?_) h.1
      unfold lastPlace
      omega
  obtain ⟨k, rfl⟩ := last
  rw [Nat.mul_comm (Nat.pow 2 place) k] at above ⊢
  exact Nat.mul_le_mul_right _ (Nat.lt_of_mul_lt_mul_right (Nat.lt_of_not_le above))

end Format

namespace Magnitude

variable {F : Format}

/-- The magnitude that a quotient is rounded to is the nearest. -/
theorem isNearest_of_units {m : Magnitude F} {num den : Nat} (positive : 0 < den)
    (rounded : m.units = F.nearest (num * F.one) den) : m.IsNearest num den := by
  have apart (other : Magnitude F) :=
    F.le_or_le_of_representable (num * F.one) den other.representable
  unfold Format.nearest at rounded
  dsimp only at rounded
  unfold Format.one at apart rounded
  generalize total : num * Nat.pow 2 F.scale = N at *
  have last : 0 < Nat.pow 2 (F.lastPlace (N / den)) := Nat.two_pow_pos _
  generalize Nat.pow 2 (F.lastPlace (N / den)) = L at *
  obtain ⟨round, tie⟩ := roundDiv_cases N (den * L)
  have whole := Nat.div_add_mod N (den * L)
  have less := Nat.mod_lt N (Nat.mul_pos positive last)
  generalize N / (den * L) = q, N % (den * L) = r, roundDiv .toEven N (den * L) = k at *
  have scaled (n : Nat) : n * L * den = den * L * n := by
    rw [Nat.mul_assoc, Nat.mul_comm, Nat.mul_comm L]
  have neighbours (other : Magnitude F) :
      other.units * den ≤ den * L * q ∨ den * L * q + den * L ≤ other.units * den := by
    rw [← Nat.mul_succ, ← scaled, ← scaled]
    exact (apart other).imp (Nat.mul_le_mul_right den) (Nat.mul_le_mul_right den)
  have here : 2 * r ≤ den * L ∧ m.units * den = den * L * q ∨
      den * L ≤ 2 * r ∧ m.units * den = den * L * q + den * L := by
    rw [rounded, scaled]
    rcases round with ⟨low, rfl⟩ | ⟨high, rfl⟩
    · exact .inl ⟨low, rfl⟩
    · exact .inr ⟨high, Nat.mul_succ _ _⟩
  refine ⟨fun other => ?_, fun other different level => ?_⟩
  · have beside := neighbours other
    unfold distance
    rw [total]
    omega
  -- the other one is on the other side, as far away, so the quotient is at the half
  · have different : other.units * den ≠ m.units * den :=
      fun same => different (Nat.eq_of_mul_eq_mul_right positive same)
    have beside := neighbours other
    unfold distance at level
    rw [total] at level
    have half : 2 * r = den * L := by omega
    have gap : ((m.units - other.units) + (other.units - m.units)) * den = L * den := by
      rw [Nat.add_mul, Nat.sub_mul, Nat.sub_mul, Nat.mul_comm L]
      omega
    rw [Nat.eq_of_mul_eq_mul_right positive gap, rounded]
    exact Nat.mul_dvd_mul_right (Nat.dvd_of_mod_eq_zero (tie half)) L

end Magnitude

/-! ### Parts of a whole -/

namespace Number

variable {F : Format}

/-- The number is how much of a whole is done, as near as the format gets, and one if the whole is
nothing. -/
inductive IsPart (done whole : Nat) : Number F → Prop where
  | nothing {m : Magnitude F} (empty : whole = 0) (one : m.units = F.one) :
    IsPart done whole (.finite false m)
  | part {m : Magnitude F} (some : 0 < whole) (nearest : m.IsNearest done whole) :
    IsPart done whole (.finite false m)

/-- The second number is no less than the first. -/
inductive Ascends : Number F → Number F → Prop where
  | mk {m m' : Magnitude F} (le : m.units ≤ m'.units) : Ascends (.finite false m) (.finite false m')

theorem nearest_self (room : F.precision + F.scale < F.limit) {n : Nat} (positive : 0 < n) :
    F.nearest (n * F.one) n = F.one ∧ F.one < F.bound := by
  have small : 1 ≤ Nat.pow 2 F.precision := Nat.two_pow_pos F.precision
  obtain ⟨same, below⟩ := F.nearest_whole room small
  rw [Nat.one_mul] at same below
  have scaled := F.nearest_mul F.one 1 positive
  rw [Nat.one_mul] at scaled
  exact ⟨by rw [Nat.mul_comm, scaled, same], below⟩

/-- A quotient of no more than one is rounded to a finite number, the nearest of the format. -/
theorem ofRatio_of_le (room : F.precision + F.scale < F.limit) {num den : Nat} (positive : 0 < den)
    (proper : num ≤ den) :
    ∃ m : Magnitude F, ofRatio false num den = .finite false m ∧ m.units = F.nearest (num * F.one) den := by
  obtain ⟨same, below⟩ := nearest_self room positive
  have bound : F.nearest (num * F.one) den < F.bound := by
    calc F.nearest (num * F.one) den
        ≤ F.nearest (den * F.one) den := F.nearest_mono den (Nat.mul_le_mul_right _ proper)
      _ = F.one := same
      _ < F.bound := below
  refine ⟨⟨_, F.nearest_representable bound⟩, ?_, rfl⟩
  unfold ofRatio
  rw [dif_pos bound]

end Number
end Quaked

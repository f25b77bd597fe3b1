import Quaked.Proofs.Number.Extent
import Quaked.Proofs.Number.Integer

/-!
# Whole numbers

A number is an integer if it is as many units as the integer is times one (`IsInteger`). Integers of no
more than the significant bits of a format have such a number, whether they are converted
(`isInteger_ofInt`) or read from their digits (`isInteger_ofNumeral`). The other way round a number is seen
as an integer of 64 bits by its place in the order alone (`truncate_eq_seen`).
-/

namespace Quaked

theorem Format.one_ne_zero (F : Format) : (F.one : Int) ≠ 0 :=
  Int.natCast_ne_zero.2 (Nat.ne_of_gt F.one_pos)

namespace Numeral

theorem signed_natAbs (n : Int) : signed (decide (n < 0)) n.natAbs = n := by
  unfold signed
  split
  · rename_i negative
    have := of_decide_eq_true negative
    omega
  · rename_i other
    have := of_decide_eq_false (Bool.eq_false_iff.2 other)
    omega

theorem natAbs_signed (negative : Bool) (size : Nat) : (signed negative size).natAbs = size := by
  cases negative with
  | false => exact Int.natAbs_natCast size
  | true => exact (Int.natAbs_neg _).trans (Int.natAbs_natCast size)

theorem signed_mul (negative : Bool) (m n : Nat) : signed negative (m * n) = signed negative m * n := by
  cases negative with
  | false => exact Int.natCast_mul m n
  | true => exact (congrArg Neg.neg (Int.natCast_mul m n)).trans (Int.neg_mul _ _).symm

theorem signed_tdiv (negative : Bool) (m n : Nat) :
    (signed negative m).tdiv n = signed negative (m / n) := by
  cases negative with
  | false => exact (Int.ofNat_tdiv m n).symm
  | true => exact (Int.neg_tdiv _ _).trans (congrArg Neg.neg (Int.ofNat_tdiv m n).symm)

end Numeral

namespace Number

variable {F : Format}

/-! ### Integers -/

/-- Whether a number is an integer: it is as many units as the integer is times one. -/
def IsInteger (x : Number F) (n : Int) : Prop := x.rank = some (n * F.one)

theorem isInteger_finite (negative : Bool) {m : Magnitude F} {size : Nat}
    (units : m.units = size * F.one) : (finite negative m).IsInteger (Numeral.signed negative size) := by
  show some (Numeral.signed negative m.units) = _
  rw [units, Numeral.signed_mul]

/-- An integer counts as true unless it is zero. -/
theorem isTruthy_iff {x : Number .double} {n : Int} (is : x.IsInteger n) :
    (Value.number x).isTruthy = true ↔ n ≠ 0 := by
  have zero : (x == Number.zero) = decide (n * Format.double.one = 0) := by
    show compares _ x zero = _
    rw [compares, show x.rank = _ from is]
    rfl
  have product : n * Format.double.one = 0 ↔ n = 0 := by
    rw [Int.mul_eq_zero, or_iff_left Format.double.one_ne_zero]
  rw [Value.isTruthy, zero, Bool.not_eq_true', decide_eq_false_iff_not, product]

section Room

variable (room : F.precision + F.scale < F.limit)
include room

/-- Integers of no more than the significant bits are exact. -/
theorem isInteger_ofInt {n : Int} (small : n.natAbs ≤ Nat.pow 2 F.precision) :
    (ofInt n : Number F).IsInteger n := by
  obtain ⟨same, bound⟩ := F.nearest_whole room small
  have inRange : F.nearest (n.natAbs * F.one) 1 < F.bound := by rwa [same]
  have is := isInteger_finite (decide (n < 0)) (m := ⟨_, F.nearest_representable inRange⟩) same
  rw [Numeral.signed_natAbs] at is
  unfold ofInt ofRatio
  rw [dif_pos inRange]
  exact is

/-- So are they if they are read from their digits. -/
theorem isInteger_ofNumeral (negative : Bool) {size : Nat} (small : size ≤ Nat.pow 2 F.precision) :
    (ofNumeral ⟨negative, ⟨size, 0⟩⟩ : Number F).IsInteger (Numeral.signed negative size) := by
  obtain ⟨-, bound⟩ := F.nearest_whole room small
  have same := Magnitude.ofDecimal_whole ⟨size * F.one, F.pow_lastPlace_dvd small, bound⟩ rfl
  have inRange : F.ofDecimal ⟨size, 0⟩ < F.bound := by rwa [same]
  unfold ofNumeral
  rw [dif_pos inRange]
  exact isInteger_finite negative same

/-- The digits of an integer behind its sign write the integer. -/
theorem isInteger_of_readInteger? {digits : List Char} {n : Int}
    (read : Numeral.readInteger? digits = some (n, [])) (small : n.natAbs ≤ Nat.pow 2 F.precision) :
    ∃ x : Number F, ofString? (String.ofList digits) = some x ∧ x.IsInteger n := by
  obtain ⟨negative, size, rfl, numeral⟩ := Numeral.read?_of_readInteger? read
  rw [Numeral.natAbs_signed] at small
  refine ⟨_, ?_, isInteger_ofNumeral room negative small⟩
  simp [ofString?, Numeral.ofString?, numeral]

end Room

/-! ### What is seen of a number -/

/-- The integer of 64 bits that is seen of a number: units that make no whole one are cut off, and what
is out of range is moved to its end. What is no number is seen as zero. -/
def seen (x : Number F) : Int :=
  match x.rank with
  | none => 0
  | some units => Max.max Word.least (Min.min Word.greatest (units.tdiv F.one))

theorem seen_of_rank {x : Number F} {units : Int} (rank : x.rank = some units) :
    x.seen = Max.max Word.least (Min.min Word.greatest (units.tdiv F.one)) := by
  rw [seen, rank]

/-- What is seen of a number has 64 bits. -/
theorem seen_inRange (x : Number F) : Word.least ≤ x.seen ∧ x.seen ≤ Word.greatest := by
  unfold seen Word.least Word.greatest
  split
  · omega
  · omega

/-- Integers in range are seen as they are. -/
theorem seen_of_isInteger {x : Number F} {n : Int} (is : x.IsInteger n) (least : Word.least ≤ n)
    (greatest : n ≤ Word.greatest) : x.seen = n := by
  rw [seen_of_rank is, Int.mul_tdiv_cancel _ F.one_ne_zero, Int.min_eq_right greatest,
    Int.max_eq_right least]

/-- The whole part of a number, moved into range, is what is seen of it. -/
theorem truncate_eq_seen (room : F.scale + 64 ≤ F.limit) (x : Number F) :
    x.truncate Word.least Word.greatest = x.seen := by
  cases x with
  | nan => rfl
  | infinite negative =>
    -- the units of an infinity make more whole ones than there are words
    have far : 18446744073709551616 ≤ F.bound / F.one := by
      rw [Nat.le_div_iff_mul_le F.one_pos]
      calc 2 ^ 64 * 2 ^ F.scale = 2 ^ (F.scale + 64) := by rw [Nat.add_comm, Nat.pow_add]
        _ ≤ 2 ^ F.limit := Nat.pow_le_pow_right (by decide) room
    rw [seen_of_rank rfl, Numeral.signed_tdiv]
    generalize F.bound / F.one = whole at far
    cases negative with
    | false =>
      show Word.greatest = Max.max Word.least (Min.min Word.greatest (whole : Int))
      unfold Word.least Word.greatest
      omega
    | true =>
      show Word.least = Max.max Word.least (Min.min Word.greatest (-(whole : Int)))
      unfold Word.least Word.greatest
      omega
  | finite negative m =>
    rw [seen_of_rank rfl, Numeral.signed_tdiv]
    unfold truncate
    dsimp only
    generalize Numeral.signed negative (m.units / F.one) = whole
    unfold Word.least Word.greatest
    split
    · omega
    · split
      · omega
      · omega

end Number
end Quaked

import Quaked.Entity.Bounds

/-!
# Boxes

Any two corners that hold numbers span a box: on each axis its ends are the two numbers that the corners
have there, the lesser one below. Nothing is left to put in order, and the corners may as well be taken the
other way around. Only where both have a zero the ends may be of another sign than the one that is given,
so numbers are compared with `==`.

* `Number.min_max_cases`: what the lesser and the greater of two numbers are.
* `Bounds.ends_spanning`, `Bounds.repair_spanning`, `Bounds.spanning_comm`: what two corners span.
-/

namespace Quaked

/-! ### The lesser and the greater number -/

namespace Number

variable {F : Format} {x y : Number F}

/-- What is a number has a place in the order. -/
theorem exists_rank (number : x.isNaN = false) : ∃ place, x.rank = some place := by
  cases x with
  | nan => cases number
  | infinite negative => exact ⟨_, rfl⟩
  | finite negative magnitude => exact ⟨_, rfl⟩

theorem compares_eq (relation : Int → Int → Bool) {a b : Int} (left : x.rank = some a)
    (right : y.rank = some b) : compares relation x y = relation a b := by
  unfold compares
  rw [left, right]

theorem beq_self (number : x.isNaN = false) : (x == x) = true := by
  obtain ⟨a, place⟩ := exists_rank number
  exact (compares_eq _ place place).trans (decide_eq_true rfl)

theorem le_self (number : x.isNaN = false) : x.le x = true := by
  obtain ⟨a, place⟩ := exists_rank number
  exact (compares_eq _ place place).trans (decide_eq_true (Int.le_refl a))

/-- The lesser one and the greater one in either order of two numbers: of two that are equal the first is
both. -/
theorem min_max_cases (number : x.isNaN = false) (number' : y.isNaN = false) :
    x.le y = true ∧ (x.min y = x ∧ x.max y = y) ∧ (y.min x = x ∧ y.max x = y) ∨
      y.le x = true ∧ (x.min y = y ∧ x.max y = x) ∧ (y.min x = y ∧ y.max x = x) ∨
      (x == y) = true ∧ (x.min y = x ∧ x.max y = x) ∧ (y.min x = y ∧ y.max x = y) := by
  obtain ⟨a, left⟩ := exists_rank number
  obtain ⟨b, right⟩ := exists_rank number'
  have less : x.lt y = decide (a < b) := compares_eq _ left right
  have more : y.lt x = decide (b < a) := compares_eq _ right left
  have equal : (x == y) = decide (a = b) := compares_eq _ left right
  have below : x.le y = decide (a ≤ b) := compares_eq _ left right
  have above : y.le x = decide (b ≤ a) := compares_eq _ right left
  unfold Number.min Number.max
  rw [number, number', less, more, equal, below, above]
  rcases Int.lt_trichotomy a b with lt | rfl | gt
  · have asymm : ¬ b < a := Int.not_lt.2 (Int.le_of_lt lt)
    simp [lt, asymm, Int.le_of_lt lt]
  · simp
  · have asymm : ¬ a < b := Int.not_lt.2 (Int.le_of_lt gt)
    simp [gt, asymm, Int.le_of_lt gt]

/-- Two numbers are the ends of an interval between two others: they are in order, and they are the others
in some order. -/
structure Ends (low high x y : Number F) : Prop where
  order : low.le high = true
  numbers : low.isNaN = false ∧ high.isNaN = false
  same : (low == x) = true ∧ (high == y) = true ∨ (low == y) = true ∧ (high == x) = true

theorem ends_min_max (number : x.isNaN = false) (number' : y.isNaN = false) :
    Ends (x.min y) (x.max y) x y := by
  have self := beq_self number
  have self' := beq_self number'
  rcases min_max_cases number number' with
    ⟨order, ⟨low, high⟩, -⟩ | ⟨order, ⟨low, high⟩, -⟩ | ⟨equal, ⟨low, high⟩, -⟩
  · rw [low, high]
    exact ⟨order, ⟨number, number'⟩, .inl ⟨self, self'⟩⟩
  · rw [low, high]
    exact ⟨order, ⟨number', number⟩, .inr ⟨self', self⟩⟩
  · rw [low, high]
    exact ⟨le_self number, ⟨number, number⟩, .inl ⟨self, equal⟩⟩

/-- The lesser and the greater one are in order already. -/
theorem min_max_min_max (number : x.isNaN = false) (number' : y.isNaN = false) :
    (x.min y).min (x.max y) = x.min y ∧ (x.min y).max (x.max y) = x.max y := by
  have self : x.min x = x ∧ x.max x = x := by
    unfold Number.min Number.max
    simp
  rcases min_max_cases number number' with
    ⟨-, ⟨low, high⟩, -⟩ | ⟨-, ⟨low, high⟩, low', high'⟩ | ⟨-, ⟨low, high⟩, -⟩
  · rw [low, high]
    exact ⟨low, high⟩
  · rw [low, high]
    exact ⟨low', high'⟩
  · rw [low, high]
    exact self

theorem min_max_comm (number : x.isNaN = false) (number' : y.isNaN = false) :
    (x.min y == y.min x) = true ∧ (x.max y == y.max x) = true := by
  have self := beq_self number
  have self' := beq_self number'
  rcases min_max_cases number number' with
    ⟨-, ⟨low, high⟩, low', high'⟩ | ⟨-, ⟨low, high⟩, low', high'⟩ | ⟨equal, ⟨low, high⟩, low', high'⟩
  · rw [low, high, low', high']
    exact ⟨self, self'⟩
  · rw [low, high, low', high']
    exact ⟨self', self⟩
  · rw [low, high, low', high']
    exact ⟨equal, equal⟩

end Number

/-! ### Boxes between two corners -/

namespace Vector

/-- The axes, by the number that a vector has on each. -/
def axes : List (Vector → Number .double) := [Vector.x, Vector.y, Vector.z]

instance : BEq Vector := ⟨fun v w => v.x == w.x && v.y == w.y && v.z == w.z⟩

/-- A vector has a number on each axis. -/
def Numeric (v : Vector) : Prop := ∀ axis ∈ axes, (axis v).isNaN = false

variable {a b : Vector}

theorem numeric_iff : a.Numeric ↔ a.x.isNaN = false ∧ a.y.isNaN = false ∧ a.z.isNaN = false := by
  simp [Numeric, axes]

/-- On each axis an operation on vectors is one on numbers. -/
theorem zipWith_axis (f : Number .double → Number .double → Number .double) (a b : Vector)
    {axis : Vector → Number .double} (mem : axis ∈ axes) :
    axis (a.zipWith f b) = f (axis a) (axis b) := by
  simp only [axes, List.mem_cons, List.not_mem_nil, or_false] at mem
  rcases mem with rfl | rfl | rfl <;> rfl

theorem beq_of_axes (h : ∀ axis ∈ axes, (axis a == axis b) = true) : (a == b) = true := by
  show (a.x == b.x && a.y == b.y && a.z == b.z) = true
  rw [h Vector.x (by simp [axes]), h Vector.y (by simp [axes]), h Vector.z (by simp [axes])]
  rfl

end Vector

namespace Bounds

instance : BEq Bounds := ⟨fun b c => b.min == c.min && b.max == c.max⟩

variable {a b : Vector} (numeric : a.Numeric) (numeric' : b.Numeric)
include numeric numeric'

/-- On each axis the ends of a box are the numbers of the corners that span it. -/
theorem ends_spanning {axis : Vector → Number .double} (mem : axis ∈ Vector.axes) :
    Number.Ends (axis (spanning a b).min) (axis (spanning a b).max) (axis a) (axis b) := by
  unfold spanning
  rw [Vector.zipWith_axis _ _ _ mem, Vector.zipWith_axis _ _ _ mem]
  exact Number.ends_min_max (numeric axis mem) (numeric' axis mem)

/-- There is nothing to put in order. -/
theorem repair_spanning : (spanning a b).repair = spanning a b := by
  obtain ⟨x, y, z⟩ := Vector.numeric_iff.1 numeric
  obtain ⟨x', y', z'⟩ := Vector.numeric_iff.1 numeric'
  obtain ⟨lowX, highX⟩ := Number.min_max_min_max x x'
  obtain ⟨lowY, highY⟩ := Number.min_max_min_max y y'
  obtain ⟨lowZ, highZ⟩ := Number.min_max_min_max z z'
  unfold repair spanning Vector.zipWith
  dsimp only
  rw [lowX, highX, lowY, highY, lowZ, highZ]

/-- The corners span the same box in either order. -/
theorem spanning_comm : (spanning a b == spanning b a) = true := by
  have both (axis : Vector → Number .double) (mem : axis ∈ Vector.axes) :=
    Number.min_max_comm (numeric axis mem) (numeric' axis mem)
  refine Bool.and_eq_true_iff.2 ⟨Vector.beq_of_axes fun axis mem => ?_, Vector.beq_of_axes fun axis mem => ?_⟩
  · unfold spanning
    rw [Vector.zipWith_axis _ _ _ mem, Vector.zipWith_axis _ _ _ mem]
    exact (both axis mem).1
  · unfold spanning
    rw [Vector.zipWith_axis _ _ _ mem, Vector.zipWith_axis _ _ _ mem]
    exact (both axis mem).2

end Bounds
end Quaked

import Quaked.Number.Shortest

/-!
# Bounds

The box that a point entity takes up. Any two opposite corners make a box: on each axis the lesser
number is its lower end (`Bounds.spanning`).
-/

namespace Quaked

/-- A point in space. -/
structure Vector where
  x : Number .double
  y : Number .double
  z : Number .double

namespace Vector

/-- Applies an operation on each axis. -/
def zipWith (f : Number .double → Number .double → Number .double) (a b : Vector) : Vector :=
  ⟨f a.x b.x, f a.y b.y, f a.z b.z⟩

/-- The vector's text. -/
def text (v : Vector) : String := "(" ++ v.x.text ++ " " ++ v.y.text ++ " " ++ v.z.text ++ ")"

end Vector

/-- A box along the axes, by its lowest and its highest corner. -/
structure Bounds where
  min : Vector
  max : Vector

namespace Bounds

/-- The box between two opposite corners. -/
def spanning (a b : Vector) : Bounds := ⟨a.zipWith Number.min b, a.zipWith Number.max b⟩

/-- The box with its corners put in order. -/
def repair (b : Bounds) : Bounds := spanning b.min b.max

end Bounds
end Quaked

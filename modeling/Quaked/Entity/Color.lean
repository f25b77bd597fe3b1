import Quaked.Number.Shortest
import Quaked.Text.Blank

/-!
# Colors

The color an editor draws a class in. Its components lie between zero and one; a component above one
is taken for a byte.
-/

namespace Quaked

open Text

/-- A color with its opacity. -/
structure Color where
  red : Number .single
  green : Number .single
  blue : Number .single
  alpha : Number .single

namespace Color

/-- A component as it is kept: what is greater than one is divided by 255. -/
def component (x : Number .single) : Number .single :=
  if (Number.ofInt 1).lt x then x.divNat 255 else x

/-- The opaque color of three components. -/
def ofComponents (red green blue : Number .single) : Color :=
  ⟨component red, component green, component blue, .ofInt 1⟩

/-- The gray that stands in for a color where none is given. -/
def gray : Color :=
  let part := Number.ofRatio false 6 10
  ofComponents part part part

/-- The color that a text writes: three numbers with white space between them. -/
def ofString? (text : String) : Option Color :=
  match (words text.toList).mapM fun word => Number.ofString? (String.ofList word) with
  | some [red, green, blue] => some (ofComponents red green blue)
  | _ => none

/-- What is said about a text that writes no color. -/
def rejection (text : String) : String :=
  "invalid color '" ++ text ++ "', expected three numbers such as \"0.6 0.6 0.6\""

end Color
end Quaked

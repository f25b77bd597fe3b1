import Quaked.Number.Basic

/-!
# Words

Integers of 64 bits: the keys of choices, the numbers of the positional grammar and what bit
operators see of a number.
-/

namespace Quaked.Word

/-- The least integer of 64 bits. -/
def least : Int := -9223372036854775808

/-- The greatest integer of 64 bits. -/
def greatest : Int := 9223372036854775807

/-- The integer that a text writes, if it is one of 64 bits. -/
def ofString? (text : String) : Option Int :=
  (Numeral.integer? text).filter fun n => least ≤ n && n ≤ greatest

/-- The whole part of a number, moved into range. -/
def truncate {F : Format} (x : Number F) : BitVec 64 := BitVec.ofInt 64 (x.truncate least greatest)

end Quaked.Word

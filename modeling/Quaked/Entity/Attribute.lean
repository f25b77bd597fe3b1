/-!
# Attributes

What a definition says about an attribute of its class: the names of its bits, or the values to
choose from.
-/

namespace Quaked

/-- A bit of an attribute, by its value; an unnamed bit is reserved. -/
structure FlagOption where
  value : Nat
  name : String
deriving DecidableEq, Repr

/-- A value of an attribute, with what it means. -/
structure ChoiceOption where
  key : Int
  description : String
deriving DecidableEq, Repr

/-- An attribute of a class. -/
inductive Attribute where
  | flags (name : String) (options : List FlagOption)
  | choice (name : String) (options : List ChoiceOption)
deriving DecidableEq, Repr

namespace Attribute

/-- The attribute's name. -/
def name : Attribute → String
  | flags name _ | choice name _ => name

/-- The attribute that holds the flags of a class. -/
def spawnflags : String := "spawnflags"

/-- How many flags a class can have: one for each bit of the attribute. -/
def flagLimit : Nat := 32

/-- The flags with the given names, from the lowest bit on. -/
def ofFlagNames (names : List String) : Attribute :=
  flags spawnflags (names.mapIdx fun bit name => ⟨Nat.pow 2 bit, name⟩)

end Attribute

/-- The first option with a value. -/
def FlagOption.find? (options : List FlagOption) (value : Nat) : Option FlagOption :=
  options.find? fun option => option.value = value

end Quaked

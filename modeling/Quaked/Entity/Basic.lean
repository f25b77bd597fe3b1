import Quaked.Entity.Attribute
import Quaked.Entity.Bounds
import Quaked.Entity.Color
import Quaked.Selector.Basic

/-!
# Entity classes

An entity class as an editor uses it. A *point* class has bounds of its own and may show a model; a
*brush* class takes its shape from the geometry an author gives it.
-/

namespace Quaked

/-- Where the shape of a class comes from. -/
inductive Shape where
  | point (bounds : Bounds) (model : Option Selector)
  | brush

/-- An entity class. -/
structure EntityClass where
  name : String
  color : Color
  description : String
  attributes : List Attribute
  shape : Shape

namespace EntityClass

/-- The name of the class's kind. -/
def kindName (e : EntityClass) : String :=
  match e.shape with
  | .point _ _ => "point"
  | .brush => "brush"

/-- The first attribute of a name. -/
def attribute? (e : EntityClass) (name : String) : Option Attribute :=
  e.attributes.find? fun a => a.name = name

/-- The name of the flag with a value, if the class has flags. -/
def flagName? (e : EntityClass) (value : Nat) : Option String :=
  match e.attribute? Attribute.spawnflags with
  | some (.flags _ options) => (FlagOption.find? options value).map (·.name)
  | _ => none

end EntityClass
end Quaked

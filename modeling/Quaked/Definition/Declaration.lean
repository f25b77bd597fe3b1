import Quaked.Entity.Basic
import Quaked.Text.Cursor

/-!
# Declarations and their bases

A definition declares a class. One without a color is a *base*: it is not a class of entities, but
later declarations can take over its attributes and its model. A declaration is resolved against the
bases that are known when it is made, so what a base says later does not matter any more.
-/

namespace Quaked

open Text

/-- What a definition declares. -/
structure Declaration where
  name : String
  color : Option Color := none
  bounds : Option Bounds := none
  description : String := ""
  attributes : List Attribute := []
  model : Option Selector := none
  /-- The names of bases, each with the position of its reference. -/
  bases : List (String × Position) := []

/-- The bases known so far, by name. -/
structure BaseTable where
  entries : List (String × Declaration) := []

namespace BaseTable

/-- The base of a name. -/
def get? (table : BaseTable) (name : String) : Option Declaration := table.entries.lookup name

/-- Puts a base under its name, in place of one that was there. -/
def insert (table : BaseTable) (base : Declaration) : BaseTable :=
  ⟨(base.name, base) :: table.entries.filter fun entry => entry.1 ≠ base.name⟩

/-- The names of all bases in ascending order. -/
def names (table : BaseTable) : List String :=
  (table.entries.map (·.1)).mergeSort fun a b => decide (a ≤ b)

/-- The bases that a declaration refers to, as far as they are known. -/
def basesOf (table : BaseTable) (d : Declaration) : List Declaration :=
  d.bases.filterMap fun (name, _) => table.get? name

/-- The references of a declaration to bases that are not known. -/
def unknownBasesOf (table : BaseTable) (d : Declaration) : List (String × Position) :=
  d.bases.filter fun (name, _) => (table.get? name).isNone

end BaseTable

namespace Declaration

/-- Whether the declaration is a base. -/
def isBase (d : Declaration) : Bool := d.color.isNone

/-- A declaration with what it takes over: what it leaves open is filled from the first base that
does not, and attributes of bases come before its own. -/
def resolve (d : Declaration) (table : BaseTable) : Declaration :=
  let bases := table.basesOf d
  { d with
    color := d.color <|> bases.findSome? (·.color)
    bounds := d.bounds <|> bases.findSome? (·.bounds)
    model := d.model <|> bases.findSome? (·.model)
    attributes := bases.flatMap (·.attributes) ++ d.attributes
    bases := [] }

/-- The class that is declared, in the given color if the declaration has none. -/
def entityClass (d : Declaration) (defaultColor : Color) : EntityClass where
  name := d.name
  color := d.color.getD defaultColor
  description := d.description
  attributes := d.attributes
  shape := match d.bounds with
    | some bounds => .point bounds d.model
    | none => .brush

end Declaration
end Quaked

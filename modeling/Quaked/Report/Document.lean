import Quaked.Entity.Basic
import Quaked.Report.Json
import Quaked.Selector.Spelling

/-!
# Reports

All that is known of entity classes as one JSON document.
-/

namespace Quaked
namespace Report

/-- A color. -/
def ofColor (c : Color) : Json :=
  .object [("r", .ofNumber .single c.red), ("g", .ofNumber .single c.green),
    ("b", .ofNumber .single c.blue), ("a", .ofNumber .single c.alpha)]

/-- A point in space. -/
def ofVector (v : Vector) : Json :=
  .object [("x", .ofNumber .double v.x), ("y", .ofNumber .double v.y), ("z", .ofNumber .double v.z)]

/-- An attribute. -/
def ofAttribute : Attribute → Json
  | .flags name options =>
    .object [("type", .string "flags"), ("name", .string name),
      ("options", .array (options.map fun option =>
        .object [("value", .ofInt option.value), ("name", .string option.name)]))]
  | .choice name options =>
    .object [("type", .string "choice"), ("name", .string name),
      ("options", .array (options.map fun option =>
        .object [("key", .ofInt option.key), ("description", .string option.description)]))]

/-- The size that a class has. -/
def size : Shape → List (String × Json)
  | .point bounds _ =>
    [("size", .object [("min", ofVector bounds.min), ("max", ofVector bounds.max)])]
  | .brush => []

/-- The model that a class has or could have. -/
def model : Shape → List (String × Json)
  | .point _ (some selector) => [("model", .string selector.text)]
  | .point _ none => [("model", .null)]
  | .brush => []

/-- A class. -/
def ofEntity (e : EntityClass) : Json :=
  .object ([("kind", .string e.kindName), ("name", .string e.name), ("color", ofColor e.color)] ++
    size e.shape ++
    [("description", .string e.description),
      ("attributes", .array (e.attributes.map ofAttribute))] ++
    model e.shape)

/-- The text of a report on classes. -/
def text (es : List EntityClass) : String := (Json.array (es.map ofEntity)).text 0 ++ "\n"

end Report
end Quaked

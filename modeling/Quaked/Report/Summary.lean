import Quaked.Entity.Basic
import Quaked.Selector.Spelling

/-!
# Summaries

One line for each class: its kind and name in columns, its color, the corners of its bounds, its
model, and its attributes with the number of their options, in brackets for flags and in angle
brackets for choices.
-/

namespace Quaked
namespace Summary

/-- A text filled up with spaces to a width. -/
def padded (width : Nat) (text : String) : String :=
  text ++ String.ofList (List.replicate (width - text.length) ' ')

/-- An attribute with the number of its options. -/
def attributeText : Attribute → String
  | .flags name options => name ++ "[" ++ toString options.length ++ "]"
  | .choice name options => name ++ "<" ++ toString options.length ++ ">"

/-- A color without its opacity. -/
def colorText (c : Color) : String :=
  "(" ++ c.red.textInHundredths ++ " " ++ c.green.textInHundredths ++ " " ++
    c.blue.textInHundredths ++ ")"

/-- Bounds and model of a class that has them. -/
def shapeText : Shape → String
  | .point bounds model =>
    " " ++ bounds.min.text ++ " " ++ bounds.max.text ++
      match model with
      | some selector => " model " ++ selector.text
      | none => ""
  | .brush => ""

/-- All attributes, if there are any. -/
def attributesText (as : List Attribute) : String :=
  if as.isEmpty then "" else " \x7b" ++ String.intercalate ", " (as.map attributeText) ++ "\x7d"

/-- The line of a class. -/
def line (e : EntityClass) : String :=
  padded 5 e.kindName ++ " " ++ padded 24 e.name ++ " " ++ colorText e.color ++ shapeText e.shape ++
    attributesText e.attributes

/-- The lines of all classes, each of them ended. -/
def lines (es : List EntityClass) : String := String.join (es.map fun e => line e ++ "\n")

/-- What is said in the end. -/
def closing (entities warnings : Nat) : String :=
  toString entities ++ " entity classes, " ++ toString warnings ++ " warnings"

end Summary
end Quaked

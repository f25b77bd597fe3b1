import Quaked.Selector.Spelling
import Quaked.Text.Cursor

/-!
# Warnings

What a definition file says that is accepted, but better not said.
-/

namespace Quaked

open Text

/-- What a warning is about. -/
inductive Notice where
  /-- A reference to a base that is not known. -/
  | unknownBase (name : String)
  /-- A selector of the older grammar, with the selector it means. -/
  | replaceable (selector : Selector)

/-- The notice in words. -/
def Notice.message : Notice → String
  | unknownBase name => "Unknown base class '" ++ name ++ "'"
  | replaceable selector =>
    "Legacy model expressions are deprecated, replace with '" ++ selector.text ++ "'"

/-- A notice, and the position it is about. -/
structure Warning where
  notice : Notice
  position : Position

end Quaked

import Quaked.Selector.Evaluation

/-!
# The model of an entity

What an editor needs to show a model: the path of its file, and which skin and frame to take. A
selector yields it as a path alone or as a map with the keys `path`, `skin` and `frame`; whatever
else it evaluates to selects no model.
-/

namespace Quaked

/-- A model file with a skin and a frame of it. -/
structure Model where
  path : String
  skin : Nat
  frame : Nat
deriving DecidableEq, Repr

namespace Model

/-- The greatest skin or frame. -/
def greatestIndex : Nat := 4294967295

/-- The skin or frame that a value names. What is missing, no number or negative names the first,
a fraction is cut off, and what is too large is the greatest there is. -/
def index (v : Option Value) : Nat :=
  match v.bind Value.asNumber? with
  | some x => (x.truncate 0 greatestIndex).toNat
  | none => 0

/-- The model that a value stands for. A map counts by the first entry of each key. -/
def ofValue? : Value → Option Model
  | .string path => if path = "" then none else some ⟨path, 0, 0⟩
  | .map entries =>
    match entries.lookup "path" with
    | some (.string path) =>
      if path = "" then none
      else some ⟨path, index (entries.lookup "skin"), index (entries.lookup "frame")⟩
    | _ => none
  | _ => none

end Model

/-- The model that a selector picks for the attributes of a store. -/
def Selector.model? (e : Selector) (store : Store) : Except TypeMismatch (Option Model) :=
  return Model.ofValue? (← e.evaluate store)

end Quaked

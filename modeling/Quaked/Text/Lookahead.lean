import Quaked.Text.Reading

/-!
# Lookahead

A token that has been looked at is kept together with the cursor behind it. So it is made once,
however often it is looked at, and consuming it only moves the cursor there. Who moves the cursor in
any other way starts over without what was kept.
-/

namespace Quaked.Text

/-- A cursor, with the token in front of it and the cursor behind that token if it has been looked
at. -/
structure Lookahead (τ : Type) where
  cursor : Cursor
  pending : Option (τ × Cursor) := none

namespace Lookahead

variable {τ : Type}

/-- Consumes the next token, which `make` makes unless it is kept. -/
def next (make : Reading τ) : EStateM Error (Lookahead τ) τ := fun l =>
  match l.pending with
  | some (t, behind) => .ok t { cursor := behind }
  | none =>
    match make l.cursor with
    | .ok t c => .ok t { cursor := c }
    | .error e c => .error e { cursor := c }

/-- Looks at the next token and keeps it. Where none can be made the cursor stays where making it
has failed. -/
def peek (make : Reading τ) : EStateM Error (Lookahead τ) τ := fun l =>
  match l.pending with
  | some (t, _) => .ok t l
  | none =>
    match make l.cursor with
    | .ok t c => .ok t { l with pending := some (t, c) }
    | .error e c => .error e { cursor := c }

end Lookahead

end Quaked.Text

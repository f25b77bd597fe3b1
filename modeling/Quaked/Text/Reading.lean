import Quaked.Error

/-!
# Reading

A reader moves a cursor and answers, or fails and leaves the cursor where it failed: nothing is
taken back by itself. `ahead` looks without moving, `all` collects answers, and `iterate` repeats a
step for as long as it has a result and there is less to read each time.
-/

namespace Quaked.Text

/-- What reads an `α` at a cursor. -/
abbrev Reading (α : Type) := EStateM Error Cursor α

variable {α ε σ : Type}

namespace Reading

/-- What `reader` would answer. The state stays, unless `reader` fails. -/
def ahead (reader : EStateM ε σ α) : EStateM ε σ α := fun s =>
  match reader s with
  | .ok a _ => .ok a s
  | .error e s' => .error e s'

/-- Fails at a position. -/
def fail (cause : Cause) (position : Position) : EStateM Error σ α := throw ⟨cause, position⟩

/-- All that `reader` answers one after the other up to the first that is the last, with that one,
and the failure that ends it if one does. -/
def all (reader : Reading α) (isLast : α → Bool) (c : Cursor) : List α × Option Error :=
  match reader c with
  | .error e _ => ([], some e)
  | .ok a c' =>
    if isLast a then ([a], none)
    else if c'.unread < c.unread then
      let (as, failure) := all reader isLast c'
      (a :: as, failure)
    else ([a], none)
termination_by c.unread

end Reading

/-- Repeats `step`, each time on its last result, until it has none or a result has left no less to
read (`unread`) than before. -/
def iterate (unread : σ → Nat) (step : α → EStateM ε σ (Option α)) (a : α) (s : σ) :
    EStateM.Result ε σ α :=
  match step a s with
  | .error e s' => .error e s'
  | .ok none s' => .ok a s'
  | .ok (some b) s' => if unread s' < unread s then iterate unread step b s' else .ok b s'
termination_by unread s

end Quaked.Text

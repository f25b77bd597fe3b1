import Quaked.Text.Reading

/-!
# Tokens in a text

The lexer of definition files and that of selectors tell tokens apart by what stands behind a gap
(`Lexeme`), each in its own way, and read what they have found alike (`Reading.token`).
-/

namespace Quaked.Text

/-- What stands at the front of a text, for tokens of some kinds. -/
inductive Lexeme (Kind : Type) where
  /-- A token of the given kind and extent. -/
  | token (kind : Kind) (extent : Nat)
  /-- A character that starts no token. -/
  | unexpected (character : Char)
  /-- A quoted string without an end. -/
  | unterminated
deriving DecidableEq, Repr

/-- The part of a token's extent that is its text: all of it, or what is between its quotes. -/
def textOf (quoted : Bool) (extent : List Char) : String :=
  String.ofList (if quoted then extent.tail.dropLast else extent)

theorem textOf_false (extent : List Char) : textOf false extent = String.ofList extent := rfl

theorem textOf_true (inside : List Char) :
    textOf true ('"' :: (inside ++ ['"'])) = String.ofList inside := by
  rw [textOf, if_pos rfl, List.tail_cons, List.dropLast_concat]

variable {Kind τ : Type}

/-- Reads a token, which `make` makes of its kind, its extent and where it starts. Where none can be
made the cursor stays in front of what is there, except that an unterminated string is read to the
end. -/
def Reading.token (gap : List Char → Nat) (lexeme : List Char → Lexeme Kind)
    (make : Kind → List Char → Position → τ) : Reading τ := fun c =>
  let start := c.skip (gap c.rest)
  match lexeme start.rest with
  | .token kind extent => .ok (make kind (start.rest.take extent) start.position) (start.skip extent)
  | .unexpected character => .error ⟨.unexpectedCharacter character, start.position⟩ start
  | .unterminated => .error ⟨.unterminatedString, start.position⟩ start.toEnd

end Quaked.Text

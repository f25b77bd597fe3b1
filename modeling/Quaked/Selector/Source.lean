import Quaked.Selector.Token
import Quaked.Text.Reading

/-!
# Sources of tokens

The grammar of selectors asks two things of what it reads: the next token, and a measure of what is
left. A cursor in a text is such a source, and so is a list of tokens that were read before.
-/

namespace Quaked.Selector

open Text

/-- What the tokens of a selector can be read from. -/
class TokenSource (σ : Type) where
  /-- Reads a token. -/
  next : EStateM Error σ Token
  /-- How much is left to read. -/
  unread : σ → Nat

namespace Token

/-- The failure to find what is `expected` where `found` is. -/
def mismatch (expected : String) (found : Token) : Error :=
  ⟨.unexpectedToken [expected] found.description, found.position⟩

end Token

namespace TokenSource

variable {σ : Type} [TokenSource σ]

/-- The next token, which is not consumed. -/
def peek : EStateM Error σ Token := Reading.ahead next

/-- Reads a token of the given kind. -/
def nextOf (kind : Token.Kind) : EStateM Error σ Token := do
  let t ← next
  if t.kind = kind then return t else throw (Token.mismatch kind.title t)

end TokenSource
end Quaked.Selector

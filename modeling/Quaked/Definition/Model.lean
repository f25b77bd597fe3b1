import Quaked.Positional
import Quaked.Selector.Grammar

/-!
# Selectors in definitions

A definition gives its model in parentheses, by one of two grammars. The preferred one is tried
first; where it fails the other one starts over from the same place, and if it succeeds the selector
is taken with a remark that it should be written differently. If both fail it is the failure of the
preferred grammar that counts, and the cursor is back where both have started.
-/

namespace Quaked

open Text

/-- A grammar of selectors. -/
inductive SelectorGrammar where
  | expression
  | positional
deriving DecidableEq, Repr

/-- Reads a selector by a grammar. What follows it is left. -/
def SelectorGrammar.read : SelectorGrammar → Reading Selector
  | expression => Selector.Grammar.expression
  | positional => Positional.expression

/-- The grammars of selectors in definitions. -/
structure Dialect where
  preferred : SelectorGrammar := .expression
  fallback : SelectorGrammar := .positional
deriving DecidableEq, Repr

/-- A selector in a definition. -/
structure ModelClause where
  selector : Selector
  /-- Where the selector starts, if it follows the fallback grammar. -/
  outdatedAt : Option Position

namespace ModelClause

/-- A selector by one grammar, and the parenthesis that closes it. -/
def readBy (grammar : SelectorGrammar) : Reading Selector := do
  let selector ← grammar.read
  let _ ← Token.nextOf [.closeParen]
  return selector

/-- A selector by either grammar behind the parenthesis that opens it. -/
def readEither (dialect : Dialect) : Reading ModelClause := fun start =>
  match readBy dialect.preferred start with
  | .ok selector c => .ok ⟨selector, none⟩ c
  | .error e _ =>
    match readBy dialect.fallback start with
    | .ok selector c => .ok ⟨selector, some start.position⟩ c
    | .error _ _ => .error e start

/-- A selector in parentheses. -/
def read (dialect : Dialect) : Reading ModelClause := do
  let _ ← Token.nextOf [.openParen]
  readEither dialect

end ModelClause
end Quaked

import Quaked.Selector.Basic

/-!
# Spelling of selectors

The text of a selector. Parentheses stand only where the text would otherwise be read differently:
around an operand that does not bind more tightly than its operator, around a condition with its
value inside an operator, and around a number or an operator behind an operator with one operand,
so that `-(1)` does not become a number.
-/

namespace Quaked
namespace Selector

/-- A piece in parentheses. -/
def parenthesized (piece : List Char) : List Char := '(' :: piece ++ [')']

/-- A piece, in parentheses if `needed`. -/
def parenthesizedIf (needed : Bool) (piece : List Char) : List Char :=
  if needed then parenthesized piece else piece

/-- Whether an operand needs parentheses under an operator of the given precedence. -/
def needsParens (precedence : Nat) : Selector → Bool
  | binary op _ _ => op.precedence ≤ precedence
  | guarded _ _ => true
  | _ => false

/-- Whether an operand needs parentheses behind an operator that has no other. -/
def needsParensAlone : Selector → Bool
  | literal (.number _) | unary _ _ | binary _ _ _ | guarded _ _ => true
  | _ => false

/-- Elements in double braces. -/
def spellChoice (elements : List (List Char)) : List Char :=
  '{' :: '{' :: ' ' :: Value.commaSeparated elements ++ [' ', '}', '}']

mutual

/-- The characters of the selector's text. -/
def spell : Selector → List Char
  | literal value => value.spell
  | lookup name => name.toList
  | array items => Value.spellArray (spellItems items)
  | map entries => Value.spellMap (spellEntries entries)
  | unary op operand =>
    op.symbol.toList ++ parenthesizedIf operand.needsParensAlone (spell operand)
  | binary op left right =>
    parenthesizedIf (left.needsParens op.precedence) (spell left) ++
      ' ' :: op.symbol.toList ++
      ' ' :: parenthesizedIf (right.needsParens op.precedence) (spell right)
  | guarded condition value => spell condition ++ ' ' :: '-' :: '>' :: ' ' :: spell value
  | choice elements => spellChoice (spellItems elements)

/-- The spellings of a list's items. -/
def spellItems : List Selector → List (List Char)
  | [] => []
  | item :: items => spell item :: spellItems items

/-- The spellings of a map's entries. -/
def spellEntries : List (String × Selector) → List (List Char)
  | [] => []
  | (key, value) :: entries => Value.spellEntry key (spell value) :: spellEntries entries

end

/-- The selector's text. -/
def text (e : Selector) : String := String.ofList e.spell

end Selector
end Quaked

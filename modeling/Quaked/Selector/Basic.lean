import Quaked.Value

/-!
# Selectors

A selector picks the model that an editor shows for an entity. It is an expression over the entity's
attributes, so one class can look different with each of its spawnflags or styles. This module has
the tree, its operators with their symbols and precedences, and equality of trees.
-/

namespace Quaked

/-- Operators with one operand. -/
inductive UnaryOp where
  | not
  | negate
deriving DecidableEq, Repr

/-- The operator's symbol. -/
def UnaryOp.symbol : UnaryOp → String
  | not => "!"
  | negate => "-"

/-- Operators with two operands. -/
inductive BinaryOp where
  | or
  | and
  | equal
  | notEqual
  | less
  | lessOrEqual
  | greater
  | greaterOrEqual
  | bitAnd
  | bitOr
deriving DecidableEq, Repr

namespace BinaryOp

/-- All operators with two operands. -/
def all : List BinaryOp :=
  [or, and, equal, notEqual, less, lessOrEqual, greater, greaterOrEqual, bitAnd, bitOr]

/-- The operator's symbol. -/
def symbol : BinaryOp → String
  | or => "||"
  | and => "&&"
  | equal => "=="
  | notEqual => "!="
  | less => "<"
  | lessOrEqual => "<="
  | greater => ">"
  | greaterOrEqual => ">="
  | bitAnd => "&"
  | bitOr => "|"

/-- How tightly the operator binds; the higher, the tighter. -/
def precedence : BinaryOp → Nat
  | or => 1
  | and => 2
  | equal | notEqual | less | lessOrEqual | greater | greaterOrEqual => 3
  | bitAnd | bitOr => 4

end BinaryOp

/-- An expression that selects a model. -/
inductive Selector where
  | literal (value : Value)
  /-- The attribute of the given name. -/
  | lookup (name : String)
  | array (items : List Selector)
  /-- Keys with what their values come from, in order; a key may occur again. -/
  | map (entries : List (String × Selector))
  | unary (op : UnaryOp) (operand : Selector)
  | binary (op : BinaryOp) (left right : Selector)
  /-- A value that is there only under a condition. -/
  | guarded (condition value : Selector)
  /-- The first element with a defined value. -/
  | choice (elements : List Selector)

namespace Selector

/-- A number in a selector. -/
def number (x : Number .double) : Selector := literal (.number x)

/-- A string in a selector. -/
def string (s : String) : Selector := literal (.string s)

mutual

/-- Equality of trees. Numbers in them compare as numbers. -/
def equals : Selector → Selector → Bool
  | literal a, literal b => a == b
  | lookup a, lookup b => a = b
  | array a, array b => allEqual a b
  | map a, map b => allEntriesEqual a b
  | unary p a, unary q b => p = q && equals a b
  | binary p a b, binary q c d => p = q && equals a c && equals b d
  | guarded a b, guarded c d => equals a c && equals b d
  | choice a, choice b => allEqual a b
  | _, _ => false

/-- Equality item by item. -/
def allEqual : List Selector → List Selector → Bool
  | [], [] => true
  | a :: as, b :: bs => equals a b && allEqual as bs
  | _, _ => false

/-- Equality entry by entry, keys and values. -/
def allEntriesEqual : List (String × Selector) → List (String × Selector) → Bool
  | [], [] => true
  | (k, a) :: as, (l, b) :: bs => k = l && equals a b && allEntriesEqual as bs
  | _, _ => false

end

instance : BEq Selector := ⟨equals⟩

end Selector
end Quaked

import Quaked.Number.Word
import Quaked.Selector.Basic

/-!
# Evaluation of selectors

A selector is evaluated against a `Store`, normally the attributes of one entity (`Store.ofPairs`).
Evaluation goes from left to right and fails only where an operator meets a value it cannot take as
a number. What is not needed is not evaluated: the right side of `||` and `&&` when the left side
decides, a value under a condition that does not hold, and what follows the chosen element.

The evaluator itself is `evaluateBy`, to which an operator on two values is whatever it is given;
`evaluate` is the one with the operators there are.
-/

namespace Quaked

/-- The attributes a selector can look up. -/
abbrev Store := String → Option Value

/-- The store of the given attributes; of several of one name the first counts. -/
def Store.ofPairs (attributes : List (String × String)) : Store :=
  fun name => (attributes.lookup name).map .string

/-- An operator met a value of a type it does not apply to. -/
structure TypeMismatch where
  /-- The operator's symbol. -/
  operator : String
  /-- The name of the value's type. -/
  valueType : String
deriving DecidableEq, Repr

/-- The mismatch in words. -/
def TypeMismatch.message (e : TypeMismatch) : String :=
  "cannot apply '" ++ e.operator ++ "' to " ++ e.valueType ++ " value"

namespace Value

/-- The number a value counts as, for an operator. -/
def numberFor (operator : String) (v : Value) : Except TypeMismatch (Number .double) :=
  match v.asNumber? with
  | some x => .ok x
  | none => .error ⟨operator, v.typeName⟩

end Value

namespace UnaryOp

/-- Applies an operator to its operand. -/
def apply (op : UnaryOp) (v : Value) : Except TypeMismatch Value :=
  match op with
  | not => .ok (.boolean !v.isTruthy)
  | negate => return .number (-(← v.numberFor op.symbol))

end UnaryOp

namespace BinaryOp

/-- The numbers of both sides, the left one first. -/
def numbers (op : BinaryOp) (a b : Value) :
    Except TypeMismatch (Number .double × Number .double) := do
  let x ← a.numberFor op.symbol
  let y ← b.numberFor op.symbol
  return (x, y)

/-- Applies an operation on 64 bits to the whole parts of two numbers. -/
def bitwise (operation : BitVec 64 → BitVec 64 → BitVec 64) (x y : Number .double) :
    Number .double :=
  Number.ofInt (operation (Word.truncate x) (Word.truncate y)).toInt

/-- Applies an operator to both operands. -/
def apply (op : BinaryOp) (a b : Value) : Except TypeMismatch Value :=
  match op with
  | or => .ok (.boolean (a.isTruthy || b.isTruthy))
  | and => .ok (.boolean (a.isTruthy && b.isTruthy))
  | equal => .ok (.boolean (a.looselyEquals b))
  | notEqual => .ok (.boolean !a.looselyEquals b)
  | less => do
    let (x, y) ← op.numbers a b
    return .boolean (x.lt y)
  | lessOrEqual => do
    let (x, y) ← op.numbers a b
    return .boolean (x.le y)
  | greater => do
    let (x, y) ← op.numbers a b
    return .boolean (y.lt x)
  | greaterOrEqual => do
    let (x, y) ← op.numbers a b
    return .boolean (y.le x)
  | bitAnd => do
    let (x, y) ← op.numbers a b
    return .number (bitwise (· &&& ·) x y)
  | bitOr => do
    let (x, y) ← op.numbers a b
    return .number (bitwise (· ||| ·) x y)

end BinaryOp

namespace Selector

/-! ### With any operators -/

section

variable (apply : BinaryOp → Value → Value → Except TypeMismatch Value) (store : Store)

mutual

/-- The value of a selector for the attributes of a store, where an operator that needs both of its
operands does as given with them. -/
def evaluateBy : Selector → Except TypeMismatch Value
  | literal value => .ok value
  | lookup name => .ok ((store name).getD .undefined)
  | array items => return .array (← evaluateAllBy items)
  | map entries => return .map (← evaluateEntriesBy entries)
  | unary op operand => do op.apply (← evaluateBy operand)
  | binary .or left right => do
    if (← evaluateBy left).isTruthy then return .boolean true
    else return .boolean (← evaluateBy right).isTruthy
  | binary .and left right => do
    if (← evaluateBy left).isTruthy then return .boolean (← evaluateBy right).isTruthy
    else return .boolean false
  | binary op left right => do
    let a ← evaluateBy left
    let b ← evaluateBy right
    apply op a b
  | guarded condition value => do
    if (← evaluateBy condition).isTruthy then evaluateBy value else return .undefined
  | choice elements => evaluateFirstBy elements

/-- The values of a list's items. -/
def evaluateAllBy : List Selector → Except TypeMismatch (List Value)
  | [] => .ok []
  | item :: items => do
    let value ← evaluateBy item
    return value :: (← evaluateAllBy items)

/-- The values of a map's entries. -/
def evaluateEntriesBy : List (String × Selector) → Except TypeMismatch (List (String × Value))
  | [] => .ok []
  | (key, item) :: entries => do
    let value ← evaluateBy item
    return (key, value) :: (← evaluateEntriesBy entries)

/-- The first value that is defined. -/
def evaluateFirstBy : List Selector → Except TypeMismatch Value
  | [] => .ok .undefined
  | element :: elements => do
    match ← evaluateBy element with
    | .undefined => evaluateFirstBy elements
    | value => return value

end

end

/-! ### With the operators there are -/

/-- The value of a selector for the attributes of a store. -/
def evaluate (store : Store) (e : Selector) : Except TypeMismatch Value :=
  e.evaluateBy BinaryOp.apply store

/-- The values of a list's items. -/
def evaluateAll (store : Store) (items : List Selector) : Except TypeMismatch (List Value) :=
  evaluateAllBy BinaryOp.apply store items

/-- The values of a map's entries. -/
def evaluateEntries (store : Store) (entries : List (String × Selector)) :
    Except TypeMismatch (List (String × Value)) :=
  evaluateEntriesBy BinaryOp.apply store entries

/-- The first value that is defined. -/
def evaluateFirst (store : Store) (elements : List Selector) : Except TypeMismatch Value :=
  evaluateFirstBy BinaryOp.apply store elements

section

variable {store : Store} {e a b : Selector}

@[simp]
theorem evaluate_literal (v : Value) : (literal v).evaluate store = .ok v := rfl

@[simp]
theorem evaluate_lookup (name : String) :
    (lookup name).evaluate store = .ok ((store name).getD .undefined) := rfl

theorem evaluate_array (items : List Selector) :
    (array items).evaluate store = (do return .array (← evaluateAll store items)) := rfl

theorem evaluate_map (entries : List (String × Selector)) :
    (map entries).evaluate store = (do return .map (← evaluateEntries store entries)) := rfl

theorem evaluate_unary (op : UnaryOp) :
    (unary op e).evaluate store = (do op.apply (← e.evaluate store)) := rfl

theorem evaluate_or :
    (binary .or a b).evaluate store = (do
      if (← a.evaluate store).isTruthy then return .boolean true
      else return .boolean (← b.evaluate store).isTruthy) := rfl

theorem evaluate_and :
    (binary .and a b).evaluate store = (do
      if (← a.evaluate store).isTruthy then return .boolean (← b.evaluate store).isTruthy
      else return .boolean false) := rfl

/-- The operators other than `||` and `&&` are applied to the values of both sides. -/
theorem evaluate_binary {op : BinaryOp} (notOr : op ≠ .or) (notAnd : op ≠ .and) :
    (binary op a b).evaluate store = (do
      let v ← a.evaluate store
      let w ← b.evaluate store
      op.apply v w) := by
  cases op with
  | or => contradiction
  | and => contradiction
  | _ => rfl

theorem evaluate_guarded :
    (guarded a e).evaluate store = (do
      if (← a.evaluate store).isTruthy then e.evaluate store else return .undefined) := rfl

theorem evaluate_choice (elements : List Selector) :
    (choice elements).evaluate store = evaluateFirst store elements := rfl

theorem evaluateAll_cons (items : List Selector) :
    evaluateAll store (e :: items) = (do
      let value ← e.evaluate store
      return value :: (← evaluateAll store items)) := rfl

theorem evaluateEntries_cons (key : String) (entries : List (String × Selector)) :
    evaluateEntries store ((key, e) :: entries) = (do
      let value ← e.evaluate store
      return (key, value) :: (← evaluateEntries store entries)) := rfl

theorem evaluateFirst_cons (elements : List Selector) :
    evaluateFirst store (e :: elements) = (do
      match ← e.evaluate store with
      | .undefined => evaluateFirst store elements
      | value => return value) := rfl

end

end Selector
end Quaked

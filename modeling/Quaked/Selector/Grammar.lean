import Quaked.Selector.Lexer
import Quaked.Selector.Basic

/-!
# The grammar of selectors

    expression  = or
    or          = and ("||" and)*
    and         = comparison ("&&" comparison)*
    comparison  = bitwise (("==" | "!=" | "<" | "<=" | ">" | ">=") bitwise)?
    bitwise     = unary (("&" | "|") unary)*
    unary       = ("!" | "-")* primary
    primary     = literal | name | "(" expression ")" | array | map | choice
    array       = "[" (expression ("," expression)*)? "]"
    map         = "{" (string ":" expression ("," string ":" expression)*)? "}"
    choice      = "{" "{" (element ("," element)*)? "}" "}"
    element     = expression ("->" expression)?

A key of a map is always a string, so a brace behind a brace can only open a choice. Operators of
one precedence group to the left, and comparisons do not group at all.

Each production is a reader that takes the reader of nested expressions as an argument, over any
source of tokens; `expression` closes the circle. Between an expression and one nested in it at least
one token is read, so a nesting as deep as there is input left is as deep as it can get.
-/

namespace Quaked.Selector

open Text

namespace Token.Kind

/-- The operator with one operand that a token stands for. -/
def unaryOp? : Token.Kind → Option UnaryOp
  | not => some .not
  | minus => some .negate
  | _ => none

/-- The operator with two operands that a token stands for. -/
def binaryOp? : Token.Kind → Option BinaryOp
  | or => some .or
  | and => some .and
  | equal => some .equal
  | notEqual => some .notEqual
  | less => some .less
  | lessOrEqual => some .lessOrEqual
  | greater => some .greater
  | greaterOrEqual => some .greaterOrEqual
  | bitAnd => some .bitAnd
  | bitOr => some .bitOr
  | _ => none

/-- The operator of the given precedence that a token stands for. -/
def binaryOpAt? (precedence : Nat) (kind : Token.Kind) : Option BinaryOp :=
  kind.binaryOp?.filter (·.precedence = precedence)

end Token.Kind

namespace Grammar

open TokenSource (next peek nextOf unread)

variable {σ : Type} [TokenSource σ]

/-! ### Parts of productions -/

/-- Reads the next token if it is of the given kind, and answers whether it was. -/
def accept (kind : Token.Kind) : EStateM Error σ Bool := do
  if (← peek).kind = kind then
    let _ ← next
    return true
  else return false

/-- Reads the next token if it stands for an operator. -/
def operator? {α : Type} (meaning? : Token.Kind → Option α) : EStateM Error σ (Option α) := do
  match meaning? (← peek).kind with
  | some op =>
    let _ ← next
    return some op
  | none => return none

/-- One more item, if a comma stands in front of it. -/
def anotherItem {α : Type} (item : EStateM Error σ α) (items : List α) :
    EStateM Error σ (Option (List α)) := do
  if ← accept .comma then return some (items ++ [← item]) else return none

/-- Items with commas between them, at least one. -/
def separated {α : Type} (item : EStateM Error σ α) : EStateM Error σ (List α) := do
  iterate unread (anotherItem item) [← item]

/-- One more operand, if an operator of the given precedence stands in front of it. -/
def anotherOperand (precedence : Nat) (operand : EStateM Error σ Selector) (left : Selector) :
    EStateM Error σ (Option Selector) := do
  match ← operator? (Token.Kind.binaryOpAt? precedence) with
  | some op => return some (.binary op left (← operand))
  | none => return none

/-- Operands with operators of one precedence between them, grouped to the left. -/
def chain (precedence : Nat) (operand : EStateM Error σ Selector) : EStateM Error σ Selector := do
  iterate unread (anotherOperand precedence operand) (← operand)

/-- An operand, or two with an operator of the given precedence between them. -/
def pair (precedence : Nat) (operand : EStateM Error σ Selector) : EStateM Error σ Selector := do
  let left ← operand
  match ← operator? (Token.Kind.binaryOpAt? precedence) with
  | some op => return .binary op left (← operand)
  | none => return left

/-- Fails at the next token, because an expression has to start there. -/
def refuse (t : Token) : EStateM Error σ Selector := throw (Token.mismatch "expression" t)

/-- What a quoted string stands for. -/
def unquoted (t : Token) : String := String.ofList (unescape t.text.toList)

/-! ### Productions -/

/-- The rest of an array behind its bracket. -/
def array (nested : EStateM Error σ Selector) : EStateM Error σ Selector := do
  if ← accept .closeBracket then return .array []
  let items ← separated nested
  let _ ← nextOf .closeBracket
  return .array items

/-- A key and what its value comes from. -/
def entry (nested : EStateM Error σ Selector) : EStateM Error σ (String × Selector) := do
  let key ← nextOf .string
  let _ ← nextOf .colon
  return (unquoted key, ← nested)

/-- The rest of a map behind its brace. -/
def map (nested : EStateM Error σ Selector) : EStateM Error σ Selector := do
  if ← accept .closeBrace then return .map []
  let entries ← separated (entry nested)
  let _ ← nextOf .closeBrace
  return .map entries

/-- An element of a choice: an expression, which may be the condition of another. -/
def element (nested : EStateM Error σ Selector) : EStateM Error σ Selector := do
  let condition ← nested
  if ← accept .arrow then return .guarded condition (← nested) else return condition

/-- The rest of a choice behind its braces. -/
def choice (nested : EStateM Error σ Selector) : EStateM Error σ Selector := do
  let elements ← if (← peek).kind = .closeBrace then pure [] else separated (element nested)
  let _ ← nextOf .closeBrace
  let _ ← nextOf .closeBrace
  return .choice elements

/-- A literal, a name, or something in brackets. -/
def primary (nested : EStateM Error σ Selector) : EStateM Error σ Selector := do
  let t ← next
  match t.kind with
  | .string => return .string (unquoted t)
  | .number =>
    match Number.ofString? t.text with
    | some x => return .number x
    | none => Reading.fail (.invalid (.number t.text)) t.position
  | .boolean => return .literal (.boolean (t.text = "true"))
  | .null => return .literal .null
  | .name => return .lookup t.text
  | .openParen => do
    let e ← nested
    let _ ← nextOf .closeParen
    return e
  | .openBracket => array nested
  | .openBrace => do if ← accept .openBrace then choice nested else map nested
  | _ => refuse t

/-- One more operator in front of a primary expression; the last comes first in the list. -/
def anotherSign (ops : List UnaryOp) : EStateM Error σ (Option (List UnaryOp)) := do
  match ← operator? Token.Kind.unaryOp? with
  | some op => return some (op :: ops)
  | none => return none

/-- A primary expression behind any number of operators, of which the last applies first. -/
def unary (nested : EStateM Error σ Selector) : EStateM Error σ Selector := do
  let ops ← iterate unread anotherSign []
  let operand ← primary nested
  return ops.foldl (fun e op => .unary op e) operand

/-- Operands with `&` and `|` between them. -/
def bitwise (nested : EStateM Error σ Selector) : EStateM Error σ Selector :=
  chain 4 (unary nested)

/-- A comparison, or an operand of one. -/
def comparison (nested : EStateM Error σ Selector) : EStateM Error σ Selector :=
  pair 3 (bitwise nested)

/-- Operands with `&&` between them. -/
def conjunction (nested : EStateM Error σ Selector) : EStateM Error σ Selector :=
  chain 2 (comparison nested)

/-- Operands with `||` between them: an expression over the reader of those nested in it. -/
def disjunction (nested : EStateM Error σ Selector) : EStateM Error σ Selector :=
  chain 1 (conjunction nested)

/-- An expression nested at most as deep as given. Where nothing may be nested nothing is left to
read either, so there is no expression. -/
def expressionWithin : Nat → EStateM Error σ Selector
  | 0 => do refuse (← next)
  | depth + 1 => disjunction (expressionWithin depth)

/-- An expression. What follows it is left. -/
def expression : EStateM Error σ Selector := fun s => expressionWithin (unread s) s

end Grammar

/-- The selector that a text is as a whole. -/
def parse (text : String) : Except Error Selector :=
  let reader : Reading Selector := do
    let e ← Grammar.expression
    let _ ← TokenSource.nextOf .endOfInput
    return e
  match reader (Cursor.ofString text) with
  | .ok e _ => .ok e
  | .error e _ => .error e

end Quaked.Selector

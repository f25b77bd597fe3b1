import Quaked.Selector.Evaluation

/-!
# Where evaluation fails

Evaluation fails only at an operator that takes its operands for numbers, where one of them has a value
that counts as none (`Refuses`), and what it fails with names that operator and the type of that value. So
a selector none of whose parts is such an operator has a value for every store (`Lenient`). The operators
`||` and `&&` are decided from left to right and never applied to two values: whatever were done there
instead, evaluation would come to the same (`evaluateBy_congr`).

* `induction_on_parts`: what follows for a selector from its parts holds of every selector.
* `refuses_of_evaluate`: a failure is found at a part of the selector.
-/

namespace Quaked

/-- Whether the operator takes its operand for a number. -/
def UnaryOp.isNumeric : UnaryOp → Bool
  | .not => false
  | .negate => true

/-- Whether the operator takes its operands for numbers. -/
def BinaryOp.isNumeric : BinaryOp → Bool
  | .less | .lessOrEqual | .greater | .greaterOrEqual | .bitAnd | .bitOr => true
  | .or | .and | .equal | .notEqual => false

/-- A sequence fails if its first part does, or the second one behind it. -/
theorem Except.bind_eq_error_iff {ε α β : Type} {x : Except ε α} {f : α → Except ε β} {e : ε} :
    (x >>= f) = .error e ↔ x = .error e ∨ ∃ a, x = .ok a ∧ f a = .error e := by
  cases x with
  | error e' =>
    constructor
    · intro h
      cases h
      exact .inl rfl
    · rintro (h | ⟨_, none, -⟩)
      · cases h
        rfl
      · cases none
  | ok a =>
    constructor
    · exact fun h => .inr ⟨a, rfl, h⟩
    · rintro (none | ⟨_, same, h⟩)
      · cases none
      · cases same
        exact h

namespace Selector

/-! ### Parts -/

/-- The selector `p` is `e` or stands somewhere in it. -/
inductive PartOf (p : Selector) : Selector → Prop where
  | self : PartOf p p
  | item {items : List Selector} {e : Selector} (mem : e ∈ items) (inside : PartOf p e) :
    PartOf p (.array items)
  | entry {entries : List (String × Selector)} {entry : String × Selector} (mem : entry ∈ entries)
    (inside : PartOf p entry.2) : PartOf p (.map entries)
  | operand {op : UnaryOp} {e : Selector} (inside : PartOf p e) : PartOf p (.unary op e)
  | left {op : BinaryOp} {a b : Selector} (inside : PartOf p a) : PartOf p (.binary op a b)
  | right {op : BinaryOp} {a b : Selector} (inside : PartOf p b) : PartOf p (.binary op a b)
  | condition {c v : Selector} (inside : PartOf p c) : PartOf p (.guarded c v)
  | value {c v : Selector} (inside : PartOf p v) : PartOf p (.guarded c v)
  | element {elements : List Selector} {e : Selector} (mem : e ∈ elements) (inside : PartOf p e) :
    PartOf p (.choice elements)

/-- What follows for each selector from its direct parts holds of all. -/
@[elab_as_elim]
theorem induction_on_parts {P : Selector → Prop} (literal : ∀ v, P (.literal v))
    (lookup : ∀ name, P (.lookup name)) (array : ∀ items, (∀ e ∈ items, P e) → P (.array items))
    (map : ∀ entries, (∀ entry ∈ entries, P entry.2) → P (.map entries))
    (unary : ∀ op e, P e → P (.unary op e)) (binary : ∀ op a b, P a → P b → P (.binary op a b))
    (guarded : ∀ c v, P c → P v → P (.guarded c v))
    (choice : ∀ elements, (∀ e ∈ elements, P e) → P (.choice elements)) (e : Selector) : P e := by
  refine @Selector.rec P (fun items => ∀ e ∈ items, P e) (fun entries => ∀ entry ∈ entries, P entry.2)
    (fun entry => P entry.2) literal lookup array map unary binary guarded choice nofun ?_ nofun ?_ ?_ e
  · exact fun _ _ head tail => List.forall_mem_cons.2 ⟨head, tail⟩
  · exact fun _ _ head tail => List.forall_mem_cons.2 ⟨head, tail⟩
  · exact fun _ _ value => value

/-- A part takes its operands for numbers, by the operator of the given symbol. -/
inductive Numeric : Selector → String → Prop where
  | unary {op : UnaryOp} (numeric : op.isNumeric = true) (e : Selector) :
    Numeric (.unary op e) op.symbol
  | binary {op : BinaryOp} (numeric : op.isNumeric = true) (a b : Selector) :
    Numeric (.binary op a b) op.symbol

/-- The selector is built without operators that take their operands for numbers. -/
inductive Lenient : Selector → Prop where
  | literal (v : Value) : Lenient (.literal v)
  | lookup (name : String) : Lenient (.lookup name)
  | array {items : List Selector} (each : ∀ e ∈ items, Lenient e) : Lenient (.array items)
  | map {entries : List (String × Selector)} (each : ∀ entry ∈ entries, Lenient entry.2) :
    Lenient (.map entries)
  | not {e : Selector} (operand : Lenient e) : Lenient (.unary .not e)
  | binary {op : BinaryOp} {a b : Selector} (is : op ∈ [.or, .and, .equal, .notEqual])
    (left : Lenient a) (right : Lenient b) : Lenient (.binary op a b)
  | guarded {c v : Selector} (condition : Lenient c) (value : Lenient v) : Lenient (.guarded c v)
  | choice {elements : List Selector} (each : ∀ e ∈ elements, Lenient e) : Lenient (.choice elements)

variable {store : Store} {e p : Selector} {m : TypeMismatch} {symbol : String}

/-- The parts of a lenient selector are lenient. -/
theorem Lenient.part (inside : PartOf p e) (h : Lenient e) : Lenient p := by
  induction inside with
  | self => exact h
  | item mem _ ih =>
    cases h with
    | array each => exact ih (each _ mem)
  | entry mem _ ih =>
    cases h with
    | map each => exact ih (each _ mem)
  | operand _ ih =>
    cases h with
    | not operand => exact ih operand
  | left _ ih =>
    cases h with
    | binary _ left _ => exact ih left
  | right _ ih =>
    cases h with
    | binary _ _ right => exact ih right
  | condition _ ih =>
    cases h with
    | guarded condition _ => exact ih condition
  | value _ ih =>
    cases h with
    | guarded _ value => exact ih value
  | element mem _ ih =>
    cases h with
    | choice each => exact ih (each _ mem)

/-- No part of a lenient selector takes its operands for numbers. -/
theorem Lenient.not_numeric (h : Lenient e) : ¬ Numeric e symbol := by
  rintro (⟨numeric, _⟩ | ⟨numeric, _, _⟩)
  · cases h
    cases numeric
  · cases h with
    | binary is _ _ =>
      simp only [List.mem_cons, List.not_mem_nil, or_false] at is
      rcases is with rfl | rfl | rfl | rfl <;> cases numeric

/-- The symbols of the operators that take their operands for numbers. -/
theorem Numeric.symbol_mem (h : Numeric p symbol) :
    symbol ∈ ["-", "<", "<=", ">", ">=", "&", "|"] := by
  cases h with
  | @unary op numeric _ => cases op <;> first | decide | cases numeric
  | @binary op numeric _ _ => cases op <;> first | decide | cases numeric

/-! ### Failures -/

/-- The part takes an operand for a number whose value counts as none, and fails for that. -/
inductive Refuses (store : Store) : Selector → TypeMismatch → Prop where
  | unary {op : UnaryOp} {e : Selector} {v : Value} (numeric : op.isNumeric = true)
    (evaluated : e.evaluate store = .ok v) (none : v.asNumber? = none) :
    Refuses store (.unary op e) ⟨op.symbol, v.typeName⟩
  | left {op : BinaryOp} {a b : Selector} {v : Value} (numeric : op.isNumeric = true)
    (evaluated : a.evaluate store = .ok v) (none : v.asNumber? = none) :
    Refuses store (.binary op a b) ⟨op.symbol, v.typeName⟩
  | right {op : BinaryOp} {a b : Selector} {v : Value} (numeric : op.isNumeric = true)
    (evaluated : b.evaluate store = .ok v) (none : v.asNumber? = none) :
    Refuses store (.binary op a b) ⟨op.symbol, v.typeName⟩

end Selector

/-- What counts as no number is neither a number nor a truth value. -/
theorem Value.typeName_of_asNumber?_none {v : Value} (h : v.asNumber? = none) :
    v.typeName ∈ ["undefined", "null", "string", "array", "map"] := by
  cases v with
  | boolean b => cases h
  | number x => cases h
  | _ => simp [typeName]

theorem Value.numberFor_eq_error_iff {operator : String} {v : Value} {m : TypeMismatch} :
    v.numberFor operator = .error m ↔ v.asNumber? = none ∧ m = ⟨operator, v.typeName⟩ := by
  unfold numberFor
  cases v.asNumber? with
  | none =>
    constructor
    · intro h
      cases h
      exact ⟨rfl, rfl⟩
    · rintro ⟨-, rfl⟩
      rfl
  | some x => exact ⟨nofun, nofun⟩

namespace Selector

variable {store : Store} {e p : Selector} {m : TypeMismatch} {symbol : String}

namespace Refuses

theorem numeric (h : Refuses store p m) : Numeric p m.operator := by
  cases h with
  | unary numeric _ _ => exact .unary numeric _
  | left numeric _ _ => exact .binary numeric _ _
  | right numeric _ _ => exact .binary numeric _ _

theorem valueType_mem (h : Refuses store p m) :
    m.valueType ∈ ["undefined", "null", "string", "array", "map"] := by
  cases h with
  | unary _ _ none => exact Value.typeName_of_asNumber?_none none
  | left _ _ none => exact Value.typeName_of_asNumber?_none none
  | right _ _ none => exact Value.typeName_of_asNumber?_none none

end Refuses

/-! #### Operators -/

theorem refuses_of_unary {op : UnaryOp} {v : Value} (evaluated : e.evaluate store = .ok v)
    (failed : op.apply v = .error m) : Refuses store (.unary op e) m := by
  cases op with
  | not => cases failed
  | negate =>
    rcases Except.bind_eq_error_iff.1 failed with failed | ⟨_, -, failed⟩
    · obtain ⟨none, rfl⟩ := Value.numberFor_eq_error_iff.1 failed
      exact .unary rfl evaluated none
    · cases failed

/-- An operator with two operands fails for a value that it takes for a number. -/
theorem numbers_of_apply {op : BinaryOp} {v w : Value} (failed : op.apply v w = .error m) :
    op.isNumeric = true ∧ op.numbers v w = .error m := by
  cases op with
  | or | and | equal | notEqual => cases failed
  | less | lessOrEqual | greater | greaterOrEqual | bitAnd | bitOr =>
    rcases Except.bind_eq_error_iff.1 failed with failed | ⟨_, -, failed⟩
    · exact ⟨rfl, failed⟩
    · cases failed

theorem refuses_of_binary {op : BinaryOp} {a b : Selector} {v w : Value}
    (left : a.evaluate store = .ok v) (right : b.evaluate store = .ok w)
    (failed : op.apply v w = .error m) : Refuses store (.binary op a b) m := by
  obtain ⟨numeric, failed⟩ := numbers_of_apply failed
  rcases Except.bind_eq_error_iff.1 failed with failed | ⟨_, -, failed⟩
  · obtain ⟨none, rfl⟩ := Value.numberFor_eq_error_iff.1 failed
    exact .left numeric left none
  rcases Except.bind_eq_error_iff.1 failed with failed | ⟨_, -, failed⟩
  · obtain ⟨none, rfl⟩ := Value.numberFor_eq_error_iff.1 failed
    exact .right numeric right none
  · cases failed

/-- The operators `||` and `&&` fail with one of their sides. -/
theorem error_of_logical {op : BinaryOp} {a b : Selector} (logical : op = .or ∨ op = .and)
    (h : (binary op a b).evaluate store = .error m) :
    a.evaluate store = .error m ∨ b.evaluate store = .error m := by
  rcases logical with rfl | rfl
  · rw [evaluate_or] at h
    rcases Except.bind_eq_error_iff.1 h with failed | ⟨v, -, h⟩
    · exact .inl failed
    split at h
    · cases h
    · rcases Except.bind_eq_error_iff.1 h with failed | ⟨_, -, none⟩
      · exact .inr failed
      · cases none
  · rw [evaluate_and] at h
    rcases Except.bind_eq_error_iff.1 h with failed | ⟨v, -, h⟩
    · exact .inl failed
    split at h
    · rcases Except.bind_eq_error_iff.1 h with failed | ⟨_, -, none⟩
      · exact .inr failed
      · cases none
    · cases h

/-! #### Lists -/

theorem error_of_evaluateAll {items : List Selector} (h : evaluateAll store items = .error m) :
    ∃ e ∈ items, e.evaluate store = .error m := by
  induction items with
  | nil => cases h
  | cons item items ih =>
    rw [evaluateAll_cons] at h
    rcases Except.bind_eq_error_iff.1 h with first | ⟨_, -, h⟩
    · exact ⟨item, List.mem_cons_self, first⟩
    rcases Except.bind_eq_error_iff.1 h with others | ⟨_, -, none⟩
    · obtain ⟨e, mem, failed⟩ := ih others
      exact ⟨e, List.mem_cons_of_mem item mem, failed⟩
    · cases none

theorem error_of_evaluateEntries {entries : List (String × Selector)}
    (h : evaluateEntries store entries = .error m) :
    ∃ entry ∈ entries, entry.2.evaluate store = .error m := by
  induction entries with
  | nil => cases h
  | cons entry entries ih =>
    obtain ⟨key, item⟩ := entry
    rw [evaluateEntries_cons] at h
    rcases Except.bind_eq_error_iff.1 h with first | ⟨_, -, h⟩
    · exact ⟨(key, item), List.mem_cons_self, first⟩
    rcases Except.bind_eq_error_iff.1 h with others | ⟨_, -, none⟩
    · obtain ⟨entry, mem, failed⟩ := ih others
      exact ⟨entry, List.mem_cons_of_mem _ mem, failed⟩
    · cases none

/-- Elements are evaluated up to the first that is defined, so a failure is that of one of them. -/
theorem error_of_evaluateFirst {elements : List Selector}
    (h : evaluateFirst store elements = .error m) :
    ∃ e ∈ elements, e.evaluate store = .error m := by
  induction elements with
  | nil => cases h
  | cons element elements ih =>
    rw [evaluateFirst_cons] at h
    rcases Except.bind_eq_error_iff.1 h with first | ⟨v, -, h⟩
    · exact ⟨element, List.mem_cons_self, first⟩
    cases v with
    | undefined =>
      obtain ⟨e, mem, failed⟩ := ih h
      exact ⟨e, List.mem_cons_of_mem element mem, failed⟩
    | _ => cases h

/-! #### Selectors -/

/-- Where evaluation fails, a part of the selector refuses the value of an operand. -/
theorem refuses_of_evaluate (h : e.evaluate store = .error m) :
    ∃ p, PartOf p e ∧ Refuses store p m := by
  induction e using induction_on_parts with
  | literal v =>
    rw [evaluate_literal] at h
    cases h
  | lookup name =>
    rw [evaluate_lookup] at h
    cases h
  | array items ih =>
    rw [evaluate_array] at h
    rcases Except.bind_eq_error_iff.1 h with failed | ⟨_, -, none⟩
    · obtain ⟨e, mem, failed⟩ := error_of_evaluateAll failed
      obtain ⟨p, inside, refuses⟩ := ih e mem failed
      exact ⟨p, .item mem inside, refuses⟩
    · cases none
  | map entries ih =>
    rw [evaluate_map] at h
    rcases Except.bind_eq_error_iff.1 h with failed | ⟨_, -, none⟩
    · obtain ⟨entry, mem, failed⟩ := error_of_evaluateEntries failed
      obtain ⟨p, inside, refuses⟩ := ih entry mem failed
      exact ⟨p, .entry mem inside, refuses⟩
    · cases none
  | unary op e ih =>
    rw [evaluate_unary] at h
    rcases Except.bind_eq_error_iff.1 h with failed | ⟨v, evaluated, failed⟩
    · obtain ⟨p, inside, refuses⟩ := ih failed
      exact ⟨p, .operand inside, refuses⟩
    · exact ⟨_, .self, refuses_of_unary evaluated failed⟩
  | binary op a b left right =>
    by_cases logical : op = .or ∨ op = .and
    · rcases error_of_logical logical h with failed | failed
      · obtain ⟨p, inside, refuses⟩ := left failed
        exact ⟨p, .left inside, refuses⟩
      · obtain ⟨p, inside, refuses⟩ := right failed
        exact ⟨p, .right inside, refuses⟩
    obtain ⟨notOr, notAnd⟩ := not_or.1 logical
    rw [evaluate_binary notOr notAnd] at h
    rcases Except.bind_eq_error_iff.1 h with failed | ⟨v, first, h⟩
    · obtain ⟨p, inside, refuses⟩ := left failed
      exact ⟨p, .left inside, refuses⟩
    rcases Except.bind_eq_error_iff.1 h with failed | ⟨w, second, failed⟩
    · obtain ⟨p, inside, refuses⟩ := right failed
      exact ⟨p, .right inside, refuses⟩
    · exact ⟨_, .self, refuses_of_binary first second failed⟩
  | guarded c v condition value =>
    rw [evaluate_guarded] at h
    rcases Except.bind_eq_error_iff.1 h with failed | ⟨w, -, h⟩
    · obtain ⟨p, inside, refuses⟩ := condition failed
      exact ⟨p, .condition inside, refuses⟩
    split at h
    · obtain ⟨p, inside, refuses⟩ := value h
      exact ⟨p, .value inside, refuses⟩
    · cases h
  | choice elements ih =>
    rw [evaluate_choice] at h
    obtain ⟨e, mem, failed⟩ := error_of_evaluateFirst h
    obtain ⟨p, inside, refuses⟩ := ih e mem failed
    exact ⟨p, .element mem inside, refuses⟩

/-- A selector without operators that take their operands for numbers has a value. -/
theorem Lenient.evaluates (h : Lenient e) (store : Store) : ∃ v, e.evaluate store = .ok v := by
  cases evaluated : e.evaluate store with
  | ok v => exact ⟨v, rfl⟩
  | error m =>
    obtain ⟨p, inside, refuses⟩ := refuses_of_evaluate evaluated
    exact absurd refuses.numeric (h.part inside).not_numeric

/-! ### Operators that decide from left to right -/

section EvaluateBy

variable {apply apply' : BinaryOp → Value → Value → Except TypeMismatch Value}

theorem evaluateAllBy_congr {items : List Selector}
    (each : ∀ e ∈ items, e.evaluateBy apply store = e.evaluateBy apply' store) :
    evaluateAllBy apply store items = evaluateAllBy apply' store items := by
  induction items with
  | nil => rfl
  | cons item items ih =>
    obtain ⟨first, others⟩ := List.forall_mem_cons.1 each
    rw [evaluateAllBy, evaluateAllBy, first, ih others]

theorem evaluateEntriesBy_congr {entries : List (String × Selector)}
    (each : ∀ entry ∈ entries, entry.2.evaluateBy apply store = entry.2.evaluateBy apply' store) :
    evaluateEntriesBy apply store entries = evaluateEntriesBy apply' store entries := by
  induction entries with
  | nil => rfl
  | cons entry entries ih =>
    obtain ⟨first, others⟩ := List.forall_mem_cons.1 each
    rw [evaluateEntriesBy, evaluateEntriesBy, first, ih others]

theorem evaluateFirstBy_congr {elements : List Selector}
    (each : ∀ e ∈ elements, e.evaluateBy apply store = e.evaluateBy apply' store) :
    evaluateFirstBy apply store elements = evaluateFirstBy apply' store elements := by
  induction elements with
  | nil => rfl
  | cons element elements ih =>
    obtain ⟨first, others⟩ := List.forall_mem_cons.1 each
    rw [evaluateFirstBy, evaluateFirstBy, first]
    cases element.evaluateBy apply' store with
    | error m => rfl
    | ok v =>
      cases v with
      | undefined => exact ih others
      | _ => rfl

/-- It makes no difference what `||` and `&&` would do with two values. -/
theorem evaluateBy_congr (same : ∀ op, op ≠ .or → op ≠ .and → apply op = apply' op) (e : Selector)
    (store : Store) : e.evaluateBy apply store = e.evaluateBy apply' store := by
  induction e using induction_on_parts with
  | literal v => rw [evaluateBy, evaluateBy]
  | lookup name => rw [evaluateBy, evaluateBy]
  | array items ih => rw [evaluateBy, evaluateBy, evaluateAllBy_congr ih]
  | map entries ih => rw [evaluateBy, evaluateBy, evaluateEntriesBy_congr ih]
  | unary op e ih => rw [evaluateBy, evaluateBy, ih]
  | binary op a b left right =>
    cases op with
    | or | and => rw [evaluateBy, evaluateBy, left, right]
    | _ => rw [evaluateBy, evaluateBy, left, right, same] <;> decide
  | guarded c v condition value => rw [evaluateBy, evaluateBy, condition, value]
  | choice elements ih => rw [evaluateBy, evaluateBy, evaluateFirstBy_congr ih]

end EvaluateBy

/-! ### Main statement -/

/-- When evaluation can fail. It fails only at a part of the selector that takes an operand for a number,
with the symbol of its operator and the type of a value that is neither a number nor a truth value. So a
selector without such operators has a value for every store; and what `||` and `&&` would do with two
values is never asked for. -/
theorem fails_only_for_numbers (e : Selector) (store : Store) :
    (∀ m, e.evaluate store = .error m →
      m.operator ∈ ["-", "<", "<=", ">", ">=", "&", "|"] ∧
      (∃ p, PartOf p e ∧ Numeric p m.operator) ∧
      m.valueType ∈ ["undefined", "null", "string", "array", "map"]) ∧
    (Lenient e → ∃ v, e.evaluate store = .ok v) ∧
    ∀ apply : BinaryOp → Value → Value → Except TypeMismatch Value,
      (∀ op, op ≠ .or → op ≠ .and → apply op = op.apply) →
      e.evaluateBy apply store = e.evaluate store := by
  refine ⟨?_, fun lenient => lenient.evaluates store, fun apply same => evaluateBy_congr same e store⟩
  intro m failed
  obtain ⟨p, inside, refuses⟩ := refuses_of_evaluate failed
  exact ⟨refuses.numeric.symbol_mem, ⟨p, inside, refuses.numeric⟩, refuses.valueType_mem⟩

/-- A string that writes no number is compared with an attribute, under a condition that needs it. -/
theorem fails_only_for_numbers_comparison :
    let e : Selector := .guarded (.binary .or (.lookup "style") (.binary .less (.string "abc") (.lookup "n")))
      (.string "a.mdl")
    e.evaluate (.ofPairs [("style", "")]) = .error ⟨"<", "string"⟩ ∧
      (∃ p, PartOf p e ∧ Numeric p "<") ∧
      e.evaluateBy (fun op v w => if op = .or then .error ⟨"||", "any"⟩ else op.apply v w)
        (.ofPairs [("style", "")]) = .error ⟨"<", "string"⟩ := by
  intro e
  have failed : e.evaluate (.ofPairs [("style", "")]) = .error ⟨"<", "string"⟩ := rfl
  obtain ⟨blamed, -, same⟩ := fails_only_for_numbers e (.ofPairs [("style", "")])
  refine ⟨failed, (blamed _ failed).2.1, (same _ ?_).trans failed⟩
  intro op notOr _
  funext v w
  exact if_neg notOr

end Selector
end Quaked

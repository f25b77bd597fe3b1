import Quaked.Proofs.Selector.Completeness
import Quaked.Proofs.Selector.Movement
import Quaked.Proofs.Termination

/-!
# Reading a selector ends

The grammar of selectors is a recursion: an expression is made of operands, and an operand may hold an
expression in brackets. `expression` bounds the depth of nesting by what is left to read, but the bound
is never met, so an expression is what its own grammar makes of it. However deep the nesting, each
expression or operand that is read inside an operand starts with less left than that operand does.
What a phrase is read from has a token, hence everything that is read leaves less, and so does every
round of a loop.

* `disjunction_expression`: the grammar without a bound.
* `callsBelow_primary`, `callsBelow_unary`: where an operand calls the reader of expressions.
* `callsBelow_primary_ofOperands`, `callsBelow_signed`: where it calls the reader of operands.
* `terminates`: all loops and both recursions end.
-/

namespace Quaked.Selector

open Text TokenSource

/-! ### What is read leaves less to read -/

section Progress

variable {σ : Type} [TokenSource σ] [LawfulTokenSource σ] {s s' : σ} {α : Type}

/-- What derives a phrase is some token. -/
theorem Sound.leavesLess {reader : EStateM Error σ α} {φ : α → Phrase} (sound : Sound reader φ) :
    LeavesLess unread reader := by
  intro s a s' read
  obtain ⟨ts, run, derives⟩ := sound read
  obtain ⟨t, us, rfl, -⟩ := derives.starts
  have bound := run.length_add_unread_le
  rw [List.length_cons] at bound
  omega

namespace Grammar

/-- One more item leaves less to read. -/
theorem unread_anotherItem {item : EStateM Error σ α} (less : LeavesLess unread item)
    {as bs : List α} (h : anotherItem item as s = .ok (some bs) s') : unread s' < unread s := by
  obtain ⟨comma, s₁, accepted, rest⟩ := bind_eq_ok_iff.1 h
  cases comma with
  | false => cases (pure_eq_ok_iff.1 rest).1
  | true =>
    obtain ⟨t, read, is⟩ := accept_eq_true_iff.1 accepted
    obtain ⟨a, s₂, second, rest⟩ := bind_eq_ok_iff.1 rest
    obtain ⟨-, rfl⟩ := pure_eq_ok_iff.1 rest
    exact (less second).trans (LawfulTokenSource.unread_next read (by simp [is]))

/-- One more operand leaves less to read. -/
theorem unread_anotherOperand {operand : EStateM Error σ Selector} (less : LeavesLess unread operand)
    {p : Nat} {left e : Selector} (h : anotherOperand p operand left s = .ok (some e) s') :
    unread s' < unread s := by
  obtain ⟨op, s₁, marked, rest⟩ := bind_eq_ok_iff.1 h
  cases op with
  | none => cases (pure_eq_ok_iff.1 rest).1
  | some op =>
    obtain ⟨t, read, means⟩ := operator?_eq_some_iff.1 marked
    obtain ⟨right, s₂, second, rest⟩ := bind_eq_ok_iff.1 rest
    obtain ⟨-, rfl⟩ := pure_eq_ok_iff.1 rest
    refine (less second).trans (LawfulTokenSource.unread_next read ?_)
    rw [(Token.Kind.binaryOpAt?_eq_some_iff.1 means).1]
    exact op.kind_ne_endOfInput

end Grammar
end Progress

/-! ### Where nested readers are called -/

namespace Grammar

section Calls

variable {n : Nat} {c d c' d' : Cursor} {t : Token} {y : Reading Selector}

/-- A cursor where no more is left than given. -/
private abbrev AtMost (n : Nat) : Cursor → Cursor → Prop := Only (·.unread ≤ n)

/-- A cursor where less is left than given. -/
private abbrev Under (n : Nat) : Cursor → Cursor → Prop := Only (·.unread < n)

private theorem aligned_atMost : Aligned (AtMost n) := aligned_only (skippable_unread_le n)

private theorem aligned_under : Aligned (Under n) := aligned_only (skippable_unread_lt n)

private theorem atMost_of_under (h : Under n c d) : AtMost n c d := ⟨h.1, Nat.le_of_lt h.2⟩

/-- Behind a token less is left than in front of it. -/
private theorem under_of_next (h : AtMost n c d) (read : next c = .ok t c')
    (more : t.kind ≠ .endOfInput) (h' : AtMost n c' d') : Under n c' d' :=
  ⟨h'.1, Nat.lt_of_lt_of_le (LawfulTokenSource.unread_next read more) h.2⟩

private theorem eq_of_blames {P : Cursor → Prop} {e e' : Error}
    (h : Quaked.Selector.Blames (Only P) e e') : e = e' :=
  h.eq_of_only.symm

/-- A reader that does what `expression` does where less is left is in step with it there. -/
private theorem inStep_of_same (same : ∀ d, d.unread < n → y d = expression d) :
    InStep (Under n) Eq Eq y expression :=
  .of_same (inStep_expression aligned_under).keeps same

theorem callsBelow_unary : CallsBelow Cursor.unread unary (expression (σ := Cursor)) := by
  intro y c same
  have agree := inStep_unary aligned_atMost aligned_under eq_of_blames (inStep_of_same same)
    atMost_of_under under_of_next
  exact (agree c c ⟨rfl, Nat.le_refl _⟩).eq_of_only

theorem callsBelow_disjunction : CallsBelow Cursor.unread disjunction (expression (σ := Cursor)) := by
  intro y c same
  have agree := inStep_disjunction aligned_atMost aligned_under eq_of_blames (inStep_of_same same)
    atMost_of_under under_of_next
  exact (agree c c ⟨rfl, Nat.le_refl _⟩).eq_of_only

theorem callsBelow_primary : CallsBelow Cursor.unread primary (expression (σ := Cursor)) := by
  intro y c same
  cases read : next c with
  | error e c' => exact (bind_of_error read).trans (bind_of_error read).symm
  | ok t c' =>
    cases sign : t.kind.unaryOp? with
    | none =>
      have agree := agree_primary aligned_atMost aligned_under eq_of_blames (inStep_of_same same)
        atMost_of_under under_of_next ⟨rfl, Nat.le_refl _⟩ ⟨t, c', read, sign⟩
      exact agree.eq_of_only
    | some op =>
      -- a sign is refused, whatever is nested
      have refused (x : Reading Selector) : primary x c = refuse t c' := by
        refine (bind_of_ok read).trans ?_
        rw [Token.Kind.unaryOp?_eq_some_iff.1 sign]
        cases op <;> rfl
      rw [refused, refused]

/-- Where nothing is left there is no expression. -/
theorem disjunction_of_end (x : Reading Selector) (last : c.unread = 0) :
    disjunction x c = expressionWithin 0 c := by
  have nothing : c.rest = [] := List.length_eq_zero_iff.1 last
  have front : Token.front? c.rest = some ((.endOfInput, ""), []) := by
    rw [nothing]
    rfl
  obtain ⟨t, c', read, wording, -⟩ := Token.next_of_front? front
  have stop : t.kind = .endOfInput := congrArg Prod.fst wording
  have sign : operator? Token.Kind.unaryOp? c = .ok none c :=
    operator?_eq_none_iff.2 ⟨rfl, t, c', read, by rw [stop]; rfl⟩
  have refused : unary x c = .error (Token.mismatch "expression" t) c' := by
    rw [← signed_unary]
    refine (bind_of_ok sign).trans ((bind_of_ok read).trans ?_)
    rw [stop]
    rfl
  have innermost : expressionWithin 0 c = .error (Token.mismatch "expression" t) c' :=
    bind_of_ok read
  rw [innermost]
  exact bind_of_error (bind_of_error (bind_of_error (bind_of_error refused)))

/-- The bound on the depth of nesting is never met. -/
theorem expressionWithin_eq (n : Nat) :
    ∀ c : Cursor, c.unread ≤ n → expressionWithin n c = disjunction expression c := by
  induction n using Nat.strongRecOn with
  | ind n ih =>
    intro c most
    cases n with
    | zero => exact (disjunction_of_end _ (Nat.le_zero.1 most)).symm
    | succ n =>
      refine callsBelow_disjunction (expressionWithin n) c fun d less => ?_
      have left : d.unread ≤ n := Nat.le_of_lt_succ (Nat.lt_of_lt_of_le less most)
      exact (ih n (Nat.lt_succ_self n) d left).trans
        (ih d.unread (Nat.lt_succ_of_le left) d (Nat.le_refl _)).symm

/-- An expression is what the grammar says it is. -/
theorem disjunction_expression : disjunction (expression (σ := Cursor)) = expression :=
  funext fun c => (expressionWithin_eq c.unread c (Nat.le_refl _)).symm

/-! ### Operands in operands -/

theorem ofOperands_unary : ofOperands (unary expression) = expression := disjunction_expression

theorem keeps_unary {P : Cursor → Prop} (skips : Skippable P) : Keeps P (unary expression) :=
  (inStep_unary (aligned_only skips) (aligned_only skips) id (inStep_expression (aligned_only skips))
    id fun _ _ _ related => related).keeps

/-- An expression calls the reader of operands where it starts, and behind. -/
theorem ofOperands_of_same
    (same : ∀ d, d.unread ≤ c.unread → y d = unary expression d) :
    ofOperands y c = expression c := by
  have agree := inStep_ofOperands aligned_atMost eq_of_blames
    (.of_same (keeps_unary (skippable_unread_le c.unread)) same)
  exact (agree c c ⟨rfl, Nat.le_refl _⟩).eq_of_only.trans (congrFun ofOperands_unary c)

theorem callsBelow_primary_ofOperands : CallsBelow Cursor.unread
    (fun operand => primary (ofOperands operand)) (unary expression) := by
  intro y c same
  dsimp only
  rw [ofOperands_unary]
  refine callsBelow_primary (ofOperands y) c fun d less => ofOperands_of_same fun d' le => ?_
  exact same d' (Nat.lt_of_le_of_lt le less)

/-- An operand is read by reading operands. -/
theorem signed_ofOperands_unary :
    signed (ofOperands (unary expression)) (unary expression) = unary (expression (σ := Cursor)) := by
  rw [ofOperands_unary, signed_unary]

theorem callsBelow_signed : CallsBelow Cursor.unread
    (fun operand => signed (ofOperands operand) operand) (unary expression) := by
  intro y c same
  dsimp only
  unfold signed
  cases marked : operator? Token.Kind.unaryOp? c with
  | error e c' => exact (bind_of_error marked).trans (bind_of_error marked).symm
  | ok op c' =>
    rw [bind_of_ok marked, bind_of_ok marked]
    cases op with
    | some op => exact bind_of_same (same c' (unread_unaryOp? marked))
    | none =>
      obtain ⟨rfl, -⟩ := operator?_eq_none_iff.1 marked
      exact callsBelow_primary_ofOperands y c' same

end Calls

/-! ### The grammar -/

/-- The grammar of selectors ends wherever it starts. -/
structure Terminates : Prop where
  /-- A token other than the end leaves less to read. -/
  next_less : ∀ {c c' : Cursor} {t : Token},
    Token.next c = .ok t c' → t.kind ≠ .endOfInput → c'.unread < c.unread
  expression_less : LeavesLess Cursor.unread expression
  unary_less : LeavesLess Cursor.unread (unary expression)
  primary_less : LeavesLess Cursor.unread (primary expression)
  entry_less : LeavesLess Cursor.unread (entry expression)
  element_less : LeavesLess Cursor.unread (element expression)
  /-- The loops of the levels end, and those over signs, items, entries and elements. -/
  disjunction_loop : LoopTerminates Cursor.unread (anotherOperand 1 (conjunction expression))
  conjunction_loop : LoopTerminates Cursor.unread (anotherOperand 2 (comparison expression))
  bitwise_loop : LoopTerminates Cursor.unread (anotherOperand 4 (unary expression))
  signs_loop : LoopTerminates Cursor.unread (anotherSign (σ := Cursor))
  items_loop : LoopTerminates Cursor.unread (anotherItem expression)
  entries_loop : LoopTerminates Cursor.unread (anotherItem (entry expression))
  elements_loop : LoopTerminates Cursor.unread (anotherItem (element expression))
  /-- An expression is made of operands. The recursion of expressions ends, and so does that of
  operands, which from one operand to the next leads through a sign or an expression in brackets. -/
  expression_eq : ofOperands (unary expression) = expression
  expression_recursion : RecursionTerminates Cursor.unread disjunction expression
  unary_recursion : RecursionTerminates Cursor.unread
    (fun operand => signed (ofOperands operand) operand) (unary expression)
  /-- Where an operand starts, with its signs or behind them, less is left for every expression in it,
  and for every operand in such an expression. -/
  unary_expression : CallsBelow Cursor.unread unary expression
  primary_expression : CallsBelow Cursor.unread primary expression
  primary_unary : CallsBelow Cursor.unread (fun operand => primary (ofOperands operand))
    (unary expression)

theorem terminates : Terminates where
  next_less {c c' t} read more := by
    have less : unread c' < unread c := LawfulTokenSource.unread_next read more
    exact less
  expression_less := sound_expression.leavesLess
  unary_less := (sound_unary sound_expression).leavesLess
  primary_less := (sound_primary sound_expression).leavesLess
  entry_less := (sound_entry sound_expression).leavesLess
  element_less := (sound_element sound_expression).leavesLess
  disjunction_loop :=
    .of_shrinks (unread_anotherOperand (sound_conjunction sound_expression).leavesLess)
  conjunction_loop :=
    .of_shrinks (unread_anotherOperand (sound_comparison sound_expression).leavesLess)
  bitwise_loop := .of_shrinks (unread_anotherOperand (sound_unary sound_expression).leavesLess)
  signs_loop := .of_shrinks unread_anotherSign
  items_loop := .of_shrinks (unread_anotherItem sound_expression.leavesLess)
  entries_loop := .of_shrinks (unread_anotherItem (sound_entry sound_expression).leavesLess)
  elements_loop := .of_shrinks (unread_anotherItem (sound_element sound_expression).leavesLess)
  expression_eq := ofOperands_unary
  expression_recursion := .of_below disjunction_expression callsBelow_disjunction
  unary_recursion := .of_below signed_ofOperands_unary callsBelow_signed
  unary_expression := callsBelow_unary
  primary_expression := callsBelow_primary
  primary_unary := callsBelow_primary_ofOperands

end Grammar
end Quaked.Selector

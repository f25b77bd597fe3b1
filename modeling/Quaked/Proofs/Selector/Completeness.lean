import Quaked.Proofs.Selector.Soundness

/-!
# What is derived is read

A reader that looks one token ahead finds every derivation, if the token behind it cannot belong to
it as well. What that token must not be is all that the productions differ in: behind an operand of a
level no operator of that level or a tighter one may follow (`Token.Kind.stops`), and behind an
element of a choice no arrow either (`Token.Kind.stopsElement`).

A rule with a list or a chain on its left says nothing about a whole loop, only that the loop comes
past the state it describes. So `Found` says of a loop that running it from the start is running it on
from there, and the loop ends only when the token behind it is known. Derivations are well founded,
hence the only induction is on them, and the depth of nesting a reader allows is bounded by the number
of tokens.

* `found_of_derives`: the readers find what is derived wherever its tokens stand (`Finds`).
* `expression_of_derives`: a derivation is read as what it derives.
* `Derives.unambiguous`: no sequence of tokens derives two selectors.
-/

namespace Quaked.Selector

open Text TokenSource

namespace Token.Kind

/-- No operator that binds as tightly as the given precedence, or tighter, starts here. -/
def stops (precedence : Nat) (kind : Token.Kind) : Prop :=
  ∀ op : BinaryOp, kind = op.kind → op.precedence < precedence

/-- Neither an operator nor an arrow starts here. -/
def stopsElement (kind : Token.Kind) : Prop := kind.stops 1 ∧ kind ≠ .arrow

variable {kind : Token.Kind} {p q : Nat}

theorem stops.mono (h : kind.stops p) (le : p ≤ q) : kind.stops q := by
  intro op is
  exact Nat.lt_of_lt_of_le (h op is) le

theorem stops.binaryOpAt? (h : kind.stops p) : kind.binaryOpAt? p = none := by
  rw [Option.eq_none_iff_forall_ne_some]
  intro op means
  obtain ⟨is, same⟩ := binaryOpAt?_eq_some_iff.1 means
  exact absurd (h op is) (by omega)

/-- An operator stops what binds more tightly. -/
theorem stops_of_operator (op : BinaryOp) (mark : kind = op.kind) (less : op.precedence < p) :
    kind.stops p := by
  intro op' mark'
  have same : op' = op := by
    rw [mark] at mark'
    revert mark'
    cases op <;> cases op' <;> decide
  rw [same]
  exact less

/-- What separates or closes stops everything. -/
theorem stops_one_of (h : kind = .comma ∨ kind = .closeParen ∨ kind = .closeBracket ∨
    kind = .closeBrace ∨ kind = .arrow ∨ kind = .endOfInput) : kind.stops 1 := by
  intro op mark
  rcases h with h | h | h | h | h | h <;> rw [h] at mark <;> revert mark <;> cases op <;> decide

end Token.Kind

variable {σ : Type} [TokenSource σ] {s s' s₁ s₂ : σ} {t : Token} {ts : List Token} {α : Type}

/-- The next token can be read, and its kind satisfies `p`. -/
def Follows (p : Token.Kind → Prop) (s : σ) : Prop := ∃ t s', next s = .ok t s' ∧ p t.kind

theorem Follows.of_next {p : Token.Kind → Prop} (read : next s = .ok t s') (h : p t.kind) :
    Follows p s := ⟨t, s', read, h⟩

theorem Follows.imp {p q : Token.Kind → Prop} (h : Follows p s) (imp : ∀ kind, p kind → q kind) :
    Follows q s := by
  obtain ⟨t, s', read, holds⟩ := h
  exact ⟨t, s', read, imp _ holds⟩

namespace Grammar

/-! ### Parts of productions -/

theorem accept_of_next {kind : Token.Kind} (read : next s = .ok t s') (is : t.kind = kind) :
    accept kind s = .ok true s' := accept_eq_true_iff.2 ⟨t, read, is⟩

theorem accept_of_follows {kind : Token.Kind} (h : Follows (· ≠ kind) s) :
    accept kind s = .ok false s := by
  obtain ⟨t, s', read, isNot⟩ := h
  exact accept_eq_false_iff.2 ⟨rfl, t, s', read, isNot⟩

theorem nextOf_of_next {kind : Token.Kind} (read : next s = .ok t s') (is : t.kind = kind) :
    nextOf kind s = .ok t s' := nextOf_eq_ok_iff.2 ⟨read, is⟩

/-- No further operator at the end of a chain. -/
theorem anotherOperand_of_stops {p : Nat} {operand : EStateM Error σ Selector} {left : Selector}
    (h : Follows (Token.Kind.stops p) s) : anotherOperand p operand left s = .ok none s := by
  obtain ⟨t, s', read, stop⟩ := h
  have ends := operator?_eq_none_iff.2 ⟨rfl, t, s', read, stop.binaryOpAt?⟩
  exact bind_eq_ok_iff.2 ⟨_, _, ends, rfl⟩

theorem anotherOperand_of_mark {operand : EStateM Error σ Selector} {op : BinaryOp}
    {left right : Selector} (read : next s = .ok t s₁) (mark : t.kind = op.kind)
    (second : operand s₁ = .ok right s₂) :
    anotherOperand op.precedence operand left s = .ok (some (.binary op left right)) s₂ := by
  have means := Token.Kind.binaryOpAt?_eq_some_iff.2 ⟨mark, rfl⟩
  have marked := operator?_eq_some_iff.2 ⟨t, read, means⟩
  exact bind_eq_ok_iff.2 ⟨_, _, marked, bind_eq_ok_iff.2 ⟨_, _, second, rfl⟩⟩

theorem anotherItem_of_comma {item : EStateM Error σ α} {as : List α} {a : α}
    (read : next s = .ok t s₁) (comma : t.kind = .comma) (second : item s₁ = .ok a s₂) :
    anotherItem item as s = .ok (some (as ++ [a])) s₂ := by
  unfold anotherItem
  rw [bind_of_ok (accept_of_next read comma), if_pos rfl, bind_of_ok second]
  rfl

theorem anotherItem_of_follows {item : EStateM Error σ α} {as : List α}
    (h : Follows (· ≠ .comma) s) : anotherItem item as s = .ok none s := by
  unfold anotherItem
  rw [bind_of_ok (accept_of_follows h), if_neg Bool.false_ne_true]
  rfl

/-! ### Operators with one operand -/

variable {nested : EStateM Error σ Selector}

/-- The signs in front of an operand are collected behind those that are known. -/
private theorem iterate_anotherSign [LawfulTokenSource σ] (ops : List UnaryOp) (s : σ) :
    iterate unread anotherSign ops s =
      match iterate unread anotherSign [] s with
      | .ok more s' => .ok (more ++ ops) s'
      | .error e s' => .error e s' := by
  induction h : unread s using Nat.strongRecOn generalizing ops s with
  | ind n ih =>
    cases marked : operator? Token.Kind.unaryOp? s with
    | error e s₁ =>
      have fails (ops : List UnaryOp) : anotherSign ops s = .error e s₁ := bind_of_error marked
      rw [iterate_of_error (fails ops), iterate_of_error (fails [])]
    | ok op s₁ =>
      cases op with
      | none =>
        have ends (ops : List UnaryOp) : anotherSign ops s = .ok none s₁ :=
          bind_eq_ok_iff.2 ⟨_, _, marked, rfl⟩
        rw [iterate_of_none (ends ops), iterate_of_none (ends [])]
        rfl
      | some op =>
        have goesOn (ops : List UnaryOp) : anotherSign ops s = .ok (some (op :: ops)) s₁ :=
          bind_eq_ok_iff.2 ⟨_, _, marked, rfl⟩
        have less := unread_unaryOp? marked
        rw [iterate_of_some (goesOn ops) less, iterate_of_some (goesOn []) less,
          ih (unread s₁) (h ▸ less) (op :: ops) s₁ rfl, ih (unread s₁) (h ▸ less) [op] s₁ rfl]
        cases iterate unread anotherSign [] s₁ with
        | ok ops' s' => simp
        | error e s' => rfl

/-- An operator in front of an operand with signs of its own, or a primary expression. -/
def signed (nested operand : EStateM Error σ Selector) : EStateM Error σ Selector := do
  match ← operator? Token.Kind.unaryOp? with
  | some op => return .unary op (← operand)
  | none => primary nested

/-- The operators in front of an operand may be read one inside the other. -/
theorem signed_unary [LawfulTokenSource σ] (nested : EStateM Error σ Selector) :
    signed nested (unary nested) = unary nested := by
  funext s
  cases marked : operator? Token.Kind.unaryOp? s with
  | error e s₁ =>
    have fails : anotherSign [] s = .error e s₁ := bind_of_error marked
    have signs : unary nested s = .error e s₁ := bind_of_error (iterate_of_error fails)
    rw [signs]
    exact bind_of_error marked
  | ok op s₁ =>
    refine (bind_of_ok marked).trans ?_
    cases op with
    | none =>
      obtain ⟨rfl, -⟩ := operator?_eq_none_iff.1 marked
      have ends : anotherSign [] s₁ = .ok none s₁ := bind_eq_ok_iff.2 ⟨_, _, marked, rfl⟩
      refine Eq.symm ((bind_of_ok (iterate_of_none ends)).trans ?_)
      exact congrFun (bind_pure (primary nested)) s₁
    | some op =>
      have first : anotherSign [] s = .ok (some [op]) s₁ := bind_eq_ok_iff.2 ⟨_, _, marked, rfl⟩
      have loop : iterate unread anotherSign [] s = iterate unread anotherSign [op] s₁ :=
        iterate_of_some first (unread_unaryOp? marked)
      rw [iterate_anotherSign [op] s₁] at loop
      cases signs : iterate unread anotherSign [] s₁ with
      | error e s₂ =>
        rw [signs] at loop
        have fails : unary nested s₁ = .error e s₂ := bind_of_error signs
        exact (bind_of_error fails).trans (bind_of_error loop).symm
      | ok ops s₂ =>
        rw [signs] at loop
        cases inner : primary nested s₂ with
        | error e s₃ =>
          have fails : unary nested s₁ = .error e s₃ :=
            (bind_of_ok signs).trans (bind_of_error inner)
          exact (bind_of_error fails).trans ((bind_of_ok loop).trans (bind_of_error inner)).symm
        | ok e s₃ =>
          have answers : unary nested s₁ = .ok (ops.foldl (fun e op => .unary op e) e) s₃ :=
            (bind_of_ok signs).trans (bind_of_ok inner)
          refine (bind_of_ok answers).trans ((bind_of_ok loop).trans ((bind_of_ok inner).trans ?_)).symm
          rw [pure_apply, List.foldl_append]
          rfl

/-- Behind a sign stands an operand with signs of its own. -/
theorem unary_of_sign [LawfulTokenSource σ] {op : UnaryOp} {e : Selector}
    (read : next s = .ok t s₁) (mark : t.kind = op.kind) (operand : unary nested s₁ = .ok e s') :
    unary nested s = .ok (.unary op e) s' := by
  have marked := operator?_eq_some_iff.2 ⟨t, read, Token.Kind.unaryOp?_eq_some_iff.2 mark⟩
  rw [← signed_unary]
  exact bind_eq_ok_iff.2 ⟨_, _, marked, bind_eq_ok_iff.2 ⟨_, _, operand, rfl⟩⟩

/-- Without a sign in front a primary expression stands alone. -/
theorem unary_of_primary {e : Selector} (operand : primary nested s = .ok e s') :
    unary nested s = .ok e s' := by
  obtain ⟨t, s₁, read, rest⟩ := bind_eq_ok_iff.1 operand
  have means : t.kind.unaryOp? = none := by
    cases kind : t.kind <;> simp only [kind] at rest
    case not => exact absurd rest throw_ne_ok
    case minus => exact absurd rest throw_ne_ok
    all_goals rfl
  have ends := operator?_eq_none_iff.2 ⟨rfl, t, s₁, read, means⟩
  have first : anotherSign [] s = .ok none s := bind_eq_ok_iff.2 ⟨_, _, ends, rfl⟩
  exact bind_eq_ok_iff.2 ⟨_, _, iterate_of_none first, bind_eq_ok_iff.2 ⟨_, _, operand, rfl⟩⟩

/-! ### Chains and lists -/

section Chain

variable {p : Nat} {operand : EStateM Error σ Selector} {a b : Selector}

theorem chain_of_operand (h : operand s = .ok a s') :
    chain p operand s = iterate unread (anotherOperand p operand) a s' :=
  bind_of_ok h

/-- A chain comes past another operand. -/
theorem chain_of_mark (op : BinaryOp) (precedence : op.precedence = p)
    (left : chain p operand s = iterate unread (anotherOperand p operand) a s₁)
    (read : next s₁ = .ok t s₂) (mark : t.kind = op.kind) (right : operand s₂ = .ok b s')
    (less : unread s' < unread s₁) :
    chain p operand s = iterate unread (anotherOperand p operand) (.binary op a b) s' := by
  subst precedence
  rw [left, iterate_of_some (anotherOperand_of_mark read mark right) less]

theorem chain_of_stops (left : chain p operand s = iterate unread (anotherOperand p operand) a s')
    (stop : Follows (Token.Kind.stops p) s') : chain p operand s = .ok a s' := by
  rw [left, iterate_of_none (anotherOperand_of_stops stop)]

theorem pair_of_stops (first : operand s = .ok a s') (stop : Follows (Token.Kind.stops p) s') :
    pair p operand s = .ok a s' := by
  obtain ⟨t, s₁, read, stops⟩ := stop
  have ends := operator?_eq_none_iff.2 ⟨rfl, t, s₁, read, stops.binaryOpAt?⟩
  exact bind_eq_ok_iff.2 ⟨_, _, first, bind_eq_ok_iff.2 ⟨_, _, ends, rfl⟩⟩

theorem pair_of_mark {op : BinaryOp} (precedence : op.precedence = p)
    (first : operand s = .ok a s₁) (read : next s₁ = .ok t s₂) (mark : t.kind = op.kind)
    (second : operand s₂ = .ok b s') : pair p operand s = .ok (.binary op a b) s' := by
  have means := Token.Kind.binaryOpAt?_eq_some_iff.2 ⟨mark, precedence⟩
  have marked := operator?_eq_some_iff.2 ⟨t, read, means⟩
  exact bind_eq_ok_iff.2 ⟨_, _, first, bind_eq_ok_iff.2 ⟨_, _, marked,
    bind_eq_ok_iff.2 ⟨_, _, second, rfl⟩⟩⟩

end Chain

section List

variable {item : EStateM Error σ α} {as : List α} {a : α}

theorem separated_of_item (h : item s = .ok a s') :
    separated item s = iterate unread (anotherItem item) [a] s' :=
  bind_of_ok h

/-- A list comes past another item. -/
theorem separated_of_comma (before : separated item s = iterate unread (anotherItem item) as s₁)
    (read : next s₁ = .ok t s₂) (comma : t.kind = .comma) (last : item s₂ = .ok a s')
    (less : unread s' < unread s₁) :
    separated item s = iterate unread (anotherItem item) (as ++ [a]) s' := by
  rw [before, iterate_of_some (anotherItem_of_comma read comma last) less]

theorem separated_of_follows
    (before : separated item s = iterate unread (anotherItem item) as s')
    (stop : Follows (· ≠ .comma) s') : separated item s = .ok as s' := by
  rw [before, iterate_of_none (anotherItem_of_follows stop)]

end List

/-! ### Productions -/

/-- The readers of the grammar find a phrase between two states, if nested expressions may be as deep
as given. -/
def Found (depth : Nat) (s s' : σ) : Phrase → Prop
  | .operand 1 e => Follows (Token.Kind.stops 2) s' →
    disjunction (expressionWithin depth) s =
      iterate unread (anotherOperand 1 (conjunction (expressionWithin depth))) e s'
  | .operand 2 e => Follows (Token.Kind.stops 3) s' →
    conjunction (expressionWithin depth) s =
      iterate unread (anotherOperand 2 (comparison (expressionWithin depth))) e s'
  | .operand 3 e => Follows (Token.Kind.stops 3) s' →
    comparison (expressionWithin depth) s = .ok e s'
  | .operand 4 e => bitwise (expressionWithin depth) s =
      iterate unread (anotherOperand 4 (unary (expressionWithin depth))) e s'
  | .operand 5 e => unary (expressionWithin depth) s = .ok e s'
  | .operand 6 e => primary (expressionWithin depth) s = .ok e s'
  | .operand _ _ => False
  | .items es => Follows (Token.Kind.stops 1) s' →
    separated (expressionWithin (depth + 1)) s =
      iterate unread (anotherItem (expressionWithin (depth + 1))) es s'
  | .entry key e => Follows (Token.Kind.stops 1) s' →
    Grammar.entry (expressionWithin (depth + 1)) s = .ok (key, e) s'
  | .entries es => Follows (Token.Kind.stops 1) s' →
    separated (Grammar.entry (expressionWithin (depth + 1))) s =
      iterate unread (anotherItem (Grammar.entry (expressionWithin (depth + 1)))) es s'
  | .element e => Follows Token.Kind.stopsElement s' →
    Grammar.element (expressionWithin (depth + 1)) s = .ok e s'
  | .elements es => Follows Token.Kind.stopsElement s' →
    separated (Grammar.element (expressionWithin (depth + 1))) s =
      iterate unread (anotherItem (Grammar.element (expressionWithin (depth + 1)))) es s'

variable {depth : Nat} {e : Selector}

/-- An expression that nothing can go on with has been read. -/
theorem Found.expressionWithin (h : Found depth s s' (.operand 1 e))
    (stop : Follows (Token.Kind.stops 1) s') :
    expressionWithin (depth + 1) s = .ok e s' :=
  chain_of_stops (h (stop.imp fun _ stops => stops.mono (by decide))) stop

/-- An operand of a level is found where it is found as one of the next level. -/
theorem Found.level {p : Nat} (positive : 0 < p) (tighter : Found depth s s' (.operand (p + 1) e)) :
    Found depth s s' (.operand p e) := by
  match p with
  | 1 =>
    intro stop
    have stop' := stop.imp fun _ stops => stops.mono (q := 3) (by decide)
    exact chain_of_operand (chain_of_stops (tighter stop') stop)
  | 2 =>
    intro stop
    exact chain_of_operand (tighter stop)
  | 3 =>
    intro stop
    have stop' := stop.imp fun _ stops => stops.mono (q := 4) (by decide)
    exact pair_of_stops (chain_of_stops tighter stop') stop
  | 4 => exact chain_of_operand tighter
  | 5 => exact unary_of_primary tighter
  | n + 6 => exact tighter.elim

/-- An operator other than those that compare goes on with a chain. -/
theorem Found.bitwise {op : BinaryOp} {a b : Selector} (bits : op = .bitAnd ∨ op = .bitOr)
    (left : Found depth s s₁ (.operand 4 a)) (read : next s₁ = .ok t s₂) (mark : t.kind = op.kind)
    (right : Found depth s₂ s' (.operand 5 b)) (less : unread s' < unread s₁) :
    Found depth s s' (.operand 4 (.binary op a b)) := by
  have precedence : op.precedence = 4 := by
    rcases bits with rfl | rfl <;> rfl
  exact chain_of_mark op precedence left read mark right less

theorem Found.comparison {op : BinaryOp} {a b : Selector} (comparing : op ∈ BinaryOp.comparisons)
    (left : Found depth s s₁ (.operand 4 a)) (read : next s₁ = .ok t s₂) (mark : t.kind = op.kind)
    (right : Found depth s₂ s' (.operand 4 b)) : Found depth s s' (.operand 3 (.binary op a b)) := by
  intro stop
  have precedence : op.precedence = 3 := by
    revert comparing
    cases op <;> decide
  have before : Follows (Token.Kind.stops 4) s₁ :=
    .of_next read (Token.Kind.stops_of_operator op mark (by omega))
  have behind := stop.imp fun _ stops => stops.mono (q := 4) (by decide)
  exact pair_of_mark precedence (chain_of_stops left before) read mark
    (chain_of_stops right behind)

theorem Found.and {a b : Selector} (left : Found depth s s₁ (.operand 2 a))
    (read : next s₁ = .ok t s₂) (mark : t.kind = .and) (right : Found depth s₂ s' (.operand 3 b))
    (less : unread s' < unread s₁) : Found depth s s' (.operand 2 (.binary .and a b)) := by
  intro stop
  have before : Follows (Token.Kind.stops 3) s₁ :=
    .of_next read (Token.Kind.stops_of_operator .and mark (by decide))
  exact chain_of_mark .and rfl (left before) read mark (right stop) less

theorem Found.or {a b : Selector} (left : Found depth s s₁ (.operand 1 a))
    (read : next s₁ = .ok t s₂) (mark : t.kind = .or) (right : Found depth s₂ s' (.operand 2 b))
    (less : unread s' < unread s₁) : Found depth s s' (.operand 1 (.binary .or a b)) := by
  intro stop
  have before : Follows (Token.Kind.stops 2) s₁ :=
    .of_next read (Token.Kind.stops_of_operator .or mark (by decide))
  have behind := stop.imp fun _ stops => stops.mono (q := 3) (by decide)
  exact chain_of_mark .or rfl (left before) read mark
    (chain_of_stops (right behind) stop) less

/-! ### Brackets -/

section Brackets

variable {t' u u' : Token} {s₃ s₄ : σ}

/-- A phrase is read behind what it can follow. -/
theorem Follows.of_derives {φ : Phrase} {p : Token.Kind → Prop} (derived : Derives ts φ)
    (run : Yields s ts s') (imp : ∀ kind, φ.starts kind → p kind) : Follows p s := by
  obtain ⟨t, us, rfl, starts⟩ := derived.starts
  obtain ⟨s₁, read⟩ := run.next_of_cons
  exact .of_next read (imp _ starts)

theorem Found.parentheses (opening : next s = .ok t s₁) (opened : t.kind = .openParen)
    (inside : Found depth s₁ s₂ (.operand 1 e)) (closing : next s₂ = .ok u s')
    (closed : u.kind = .closeParen) : Found (depth + 1) s s' (.operand 6 e) := by
  have stop : Follows (Token.Kind.stops 1) s₂ :=
    .of_next closing (Token.Kind.stops_one_of (by simp [closed]))
  have last := nextOf_of_next closing closed
  show primary _ s = _
  rw [primary, bind_of_ok opening]
  simp only [opened]
  exact bind_eq_ok_iff.2 ⟨_, _, inside.expressionWithin stop, bind_eq_ok_iff.2 ⟨_, _, last, rfl⟩⟩

theorem Found.emptyArray (opening : next s = .ok t s₁) (opened : t.kind = .openBracket)
    (closing : next s₁ = .ok u s') (closed : u.kind = .closeBracket) :
    Found depth s s' (.operand 6 (.array [])) := by
  show primary _ s = _
  rw [primary, bind_of_ok opening]
  simp only [opened]
  exact bind_eq_ok_iff.2 ⟨_, _, accept_of_next closing closed, rfl⟩

/-- An array in its brackets, where what is inside does not start like the end. -/
theorem Found.array {es : List Selector} (opening : next s = .ok t s₁) (opened : t.kind = .openBracket)
    (start : Follows (· ≠ .closeBracket) s₁) (inside : Found depth s₁ s₂ (.items es))
    (closing : next s₂ = .ok u s') (closed : u.kind = .closeBracket) :
    Found (depth + 1) s s' (.operand 6 (.array es)) := by
  have stop : Follows (Token.Kind.stops 1) s₂ :=
    .of_next closing (Token.Kind.stops_one_of (by simp [closed]))
  have ends : Follows (· ≠ .comma) s₂ := .of_next closing (by simp [closed])
  have items := separated_of_follows (inside stop) ends
  have last := nextOf_of_next closing closed
  show primary _ s = _
  rw [primary, bind_of_ok opening]
  simp only [opened]
  refine bind_eq_ok_iff.2 ⟨_, _, accept_of_follows start, bind_eq_ok_iff.2 ⟨_, _, items, ?_⟩⟩
  exact bind_eq_ok_iff.2 ⟨_, _, last, rfl⟩

theorem Found.emptyMap (opening : next s = .ok t s₁) (opened : t.kind = .openBrace)
    (closing : next s₁ = .ok u s') (closed : u.kind = .closeBrace) :
    Found depth s s' (.operand 6 (.map [])) := by
  have noBrace : accept .openBrace s₁ = .ok false s₁ :=
    accept_of_follows (.of_next closing (by simp [closed]))
  show primary _ s = _
  rw [primary, bind_of_ok opening]
  simp only [opened]
  refine bind_eq_ok_iff.2 ⟨_, _, noBrace, ?_⟩
  exact bind_eq_ok_iff.2 ⟨_, _, accept_of_next closing closed, rfl⟩

theorem Found.map {es : List (String × Selector)} (opening : next s = .ok t s₁)
    (opened : t.kind = .openBrace) (start : Follows (· = .string) s₁)
    (inside : Found depth s₁ s₂ (.entries es)) (closing : next s₂ = .ok u s')
    (closed : u.kind = .closeBrace) : Found (depth + 1) s s' (.operand 6 (.map es)) := by
  have stop : Follows (Token.Kind.stops 1) s₂ :=
    .of_next closing (Token.Kind.stops_one_of (by simp [closed]))
  have ends : Follows (· ≠ .comma) s₂ := .of_next closing (by simp [closed])
  have entries := separated_of_follows (inside stop) ends
  have last := nextOf_of_next closing closed
  have noBrace : accept .openBrace s₁ = .ok false s₁ :=
    accept_of_follows (start.imp fun _ is => by simp [is])
  have notEmpty : accept .closeBrace s₁ = .ok false s₁ :=
    accept_of_follows (start.imp fun _ is => by simp [is])
  show primary _ s = _
  rw [primary, bind_of_ok opening]
  simp only [opened]
  refine bind_eq_ok_iff.2 ⟨_, _, noBrace, bind_eq_ok_iff.2 ⟨_, _, notEmpty, ?_⟩⟩
  exact bind_eq_ok_iff.2 ⟨_, _, entries, bind_eq_ok_iff.2 ⟨_, _, last, rfl⟩⟩

theorem Found.emptyChoice (opening : next s = .ok t s₁) (opened : t.kind = .openBrace)
    (opening' : next s₁ = .ok t' s₂) (opened' : t'.kind = .openBrace) (closing : next s₂ = .ok u s₃)
    (closed : u.kind = .closeBrace) (closing' : next s₃ = .ok u' s')
    (closed' : u'.kind = .closeBrace) : Found depth s s' (.operand 6 (.choice [])) := by
  have last := nextOf_of_next closing closed
  have last' := nextOf_of_next closing' closed'
  show primary _ s = _
  rw [primary, bind_of_ok opening]
  simp only [opened]
  refine bind_eq_ok_iff.2 ⟨_, _, accept_of_next opening' opened', ?_⟩
  refine bind_eq_ok_iff.2 ⟨_, _, peek_of_next closing, ?_⟩
  rw [if_pos closed]
  refine bind_eq_ok_iff.2 ⟨_, _, rfl, ?_⟩
  exact bind_eq_ok_iff.2 ⟨_, _, last, bind_eq_ok_iff.2 ⟨_, _, last', rfl⟩⟩

theorem Found.choice {es : List Selector} (opening : next s = .ok t s₁) (opened : t.kind = .openBrace)
    (opening' : next s₁ = .ok t' s₂) (opened' : t'.kind = .openBrace)
    (start : Follows (· ≠ .closeBrace) s₂) (inside : Found depth s₂ s₃ (.elements es))
    (closing : next s₃ = .ok u s₄) (closed : u.kind = .closeBrace) (closing' : next s₄ = .ok u' s')
    (closed' : u'.kind = .closeBrace) : Found (depth + 1) s s' (.operand 6 (.choice es)) := by
  have stop : Follows Token.Kind.stopsElement s₃ :=
    .of_next closing ⟨Token.Kind.stops_one_of (by simp [closed]), by simp [closed]⟩
  have ends : Follows (· ≠ .comma) s₃ := .of_next closing (by simp [closed])
  have elements := separated_of_follows (inside stop) ends
  have last := nextOf_of_next closing closed
  have last' := nextOf_of_next closing' closed'
  obtain ⟨v, s₅, read, more⟩ := start
  show primary _ s = _
  rw [primary, bind_of_ok opening]
  simp only [opened]
  refine bind_eq_ok_iff.2 ⟨_, _, accept_of_next opening' opened', ?_⟩
  refine bind_eq_ok_iff.2 ⟨_, _, peek_of_next read, ?_⟩
  rw [if_neg more]
  refine bind_eq_ok_iff.2 ⟨_, _, elements, ?_⟩
  exact bind_eq_ok_iff.2 ⟨_, _, last, bind_eq_ok_iff.2 ⟨_, _, last', rfl⟩⟩

end Brackets

/-! ### Parts of brackets -/

theorem Found.keyed {u : Token} (read : next s = .ok t s₁) (key : t.kind = .string)
    (read' : next s₁ = .ok u s₂) (colon : u.kind = .colon)
    (value : Found depth s₂ s' (.operand 1 e)) :
    Found depth s s' (.entry (unquoted t) e) := by
  intro stop
  refine bind_eq_ok_iff.2 ⟨_, _, nextOf_of_next read key, ?_⟩
  refine bind_eq_ok_iff.2 ⟨_, _, nextOf_of_next read' colon, ?_⟩
  exact bind_eq_ok_iff.2 ⟨_, _, value.expressionWithin stop, rfl⟩

theorem Found.unconditional (value : Found depth s s' (.operand 1 e)) :
    Found depth s s' (.element e) := by
  intro stop
  have read := value.expressionWithin (stop.imp fun _ stops => stops.1)
  have noArrow := accept_of_follows (stop.imp fun _ stops => stops.2)
  exact bind_eq_ok_iff.2 ⟨_, _, read, bind_eq_ok_iff.2 ⟨_, _, noArrow, rfl⟩⟩

theorem Found.guarded {c v : Selector} (condition : Found depth s s₁ (.operand 1 c))
    (read : next s₁ = .ok t s₂) (arrow : t.kind = .arrow)
    (value : Found depth s₂ s' (.operand 1 v)) : Found depth s s' (.element (.guarded c v)) := by
  intro stop
  have before : Follows (Token.Kind.stops 1) s₁ :=
    .of_next read (Token.Kind.stops_one_of (by simp [arrow]))
  refine bind_eq_ok_iff.2 ⟨_, _, condition.expressionWithin before, ?_⟩
  refine bind_eq_ok_iff.2 ⟨_, _, accept_of_next read arrow, ?_⟩
  exact bind_eq_ok_iff.2 ⟨_, _, value.expressionWithin (stop.imp fun _ stops => stops.1), rfl⟩

/-! ### Lists in brackets -/

theorem Found.item (only : Found depth s s' (.operand 1 e)) : Found depth s s' (.items [e]) :=
  fun stop => separated_of_item (only.expressionWithin stop)

/-- A list of items goes on behind a comma. -/
theorem Found.items {es : List Selector} (before : Found depth s s₁ (.items es))
    (read : next s₁ = .ok t s₂) (comma : t.kind = .comma) (last : Found depth s₂ s' (.operand 1 e))
    (less : unread s' < unread s₁) : Found depth s s' (.items (es ++ [e])) := by
  intro stop
  have ended : Follows (Token.Kind.stops 1) s₁ :=
    .of_next read (Token.Kind.stops_one_of (by simp [comma]))
  exact separated_of_comma (before ended) read comma (last.expressionWithin stop) less

theorem Found.entries {es : List (String × Selector)} {key : String}
    (before : Found depth s s₁ (.entries es)) (read : next s₁ = .ok t s₂) (comma : t.kind = .comma)
    (last : Found depth s₂ s' (.entry key e)) (less : unread s' < unread s₁) :
    Found depth s s' (.entries (es ++ [(key, e)])) := by
  intro stop
  have ended : Follows (Token.Kind.stops 1) s₁ :=
    .of_next read (Token.Kind.stops_one_of (by simp [comma]))
  exact separated_of_comma (before ended) read comma (last stop) less

theorem Found.elements {es : List Selector} (before : Found depth s s₁ (.elements es))
    (read : next s₁ = .ok t s₂) (comma : t.kind = .comma) (last : Found depth s₂ s' (.element e))
    (less : unread s' < unread s₁) : Found depth s s' (.elements (es ++ [e])) := by
  intro stop
  have ended : Follows Token.Kind.stopsElement s₁ :=
    .of_next read ⟨Token.Kind.stops_one_of (by simp [comma]), by simp [comma]⟩
  exact separated_of_comma (before ended) read comma (last stop) less

/-! ### Sequences of tokens -/

/-- Wherever the tokens stand the readers find a phrase in them, if nested expressions may be as deep
as there are tokens. -/
def Finds (σ : Type) [TokenSource σ] (ts : List Token) (φ : Phrase) : Prop :=
  ∀ (depth : Nat) (s s' : σ), Yields s ts s' → ts.length ≤ depth + 1 → Found depth s s' φ

namespace Finds

variable {us : List Token} {φ ψ : Phrase}

/-- On both sides of a token. -/
theorem around [LawfulTokenSource σ] (left : Finds σ ts φ) (right : Finds σ us ψ)
    (run : Yields s (ts ++ t :: us) s') (bound : (ts ++ t :: us).length ≤ depth + 1) :
    ∃ s₁ s₂, Found depth s s₁ φ ∧ next s₁ = .ok t s₂ ∧ Found depth s₂ s' ψ ∧
      unread s' < unread s₁ := by
  obtain ⟨s₁, s₂, first, read, second, less⟩ := run.around
  rw [List.length_append, List.length_cons] at bound
  exact ⟨s₁, s₂, left depth _ _ first (by omega), read, right depth _ _ second (by omega), less⟩

/-- Between two tokens there are two tokens less, so what is found there may be nested less deep. -/
theorem enclosed {u : Token} (inside : Finds σ ts φ) (run : Yields s (t :: ts ++ [u]) s')
    (bound : (t :: ts ++ [u]).length ≤ depth + 1) :
    ∃ deeper s₁ s₂, depth = deeper + 1 ∧ next s = .ok t s₁ ∧ Yields s₁ ts s₂ ∧
      Found deeper s₁ s₂ φ ∧ next s₂ = .ok u s' := by
  obtain ⟨s₁, s₂, opening, between, closing⟩ := run.enclosed
  rw [List.length_append, List.length_cons, List.length_singleton] at bound
  obtain ⟨deeper, rfl⟩ : ∃ deeper, depth = deeper + 1 := Nat.exists_eq_add_one.2 (by omega)
  exact ⟨deeper, s₁, s₂, rfl, opening, between, inside deeper _ _ between (by omega), closing⟩

theorem doubly_enclosed {t' u u' : Token} (inside : Finds σ ts φ)
    (run : Yields s (t :: t' :: ts ++ [u, u']) s')
    (bound : (t :: t' :: ts ++ [u, u']).length ≤ depth + 1) :
    ∃ deeper s₁ s₂ s₃ s₄, depth = deeper + 1 ∧ next s = .ok t s₁ ∧ next s₁ = .ok t' s₂ ∧
      Yields s₂ ts s₃ ∧ Found deeper s₂ s₃ φ ∧ next s₃ = .ok u s₄ ∧ next s₄ = .ok u' s' := by
  obtain ⟨s₁, opening, -, rest⟩ := Yields.cons_iff.1 run
  obtain ⟨s₂, opening', -, rest'⟩ := Yields.cons_iff.1 rest
  obtain ⟨s₃, between, ending⟩ := Yields.append_iff.1 rest'
  obtain ⟨s₄, closing, -, last⟩ := Yields.cons_iff.1 ending
  obtain ⟨closing', -⟩ := Yields.single_iff.1 last
  simp only [List.length_append, List.length_cons] at bound
  obtain ⟨deeper, rfl⟩ : ∃ deeper, depth = deeper + 1 := Nat.exists_eq_add_one.2 (by omega)
  exact ⟨deeper, s₁, s₂, s₃, s₄, rfl, opening, opening', between,
    inside deeper _ _ between (by omega), closing, closing'⟩

end Finds

/-! ### Derivations -/

theorem found_of_derives [LawfulTokenSource σ] {φ : Phrase} (h : Derives ts φ) : Finds σ ts φ := by
  induction h with
  | level positive _ ih => exact fun depth s s' run bound => (ih depth s s' run bound).level positive
  | or _ mark _ ihl ihr =>
    intro depth s s' run bound
    obtain ⟨s₁, s₂, left, read, right, less⟩ := ihl.around ihr run bound
    exact left.or read mark right less
  | and _ mark _ ihl ihr =>
    intro depth s s' run bound
    obtain ⟨s₁, s₂, left, read, right, less⟩ := ihl.around ihr run bound
    exact left.and read mark right less
  | comparison comparing _ mark _ ihl ihr =>
    intro depth s s' run bound
    obtain ⟨s₁, s₂, left, read, right, -⟩ := ihl.around ihr run bound
    exact .comparison comparing left read mark right
  | bitwise bits _ mark _ ihl ihr =>
    intro depth s s' run bound
    obtain ⟨s₁, s₂, left, read, right, less⟩ := ihl.around ihr run bound
    exact .bitwise bits left read mark right less
  | unary mark _ ih =>
    intro depth s s' run bound
    obtain ⟨s₁, read, -, operand⟩ := Yields.cons_iff.1 run
    exact unary_of_sign read mark (ih depth _ _ operand (Nat.le_of_succ_le bound))
  | string kind | boolean kind | null kind | lookup kind =>
    intro depth s s' run bound
    obtain ⟨read, -⟩ := Yields.single_iff.1 run
    show primary _ s = _
    rw [primary, bind_of_ok read]
    simp only [kind]
    rfl
  | number kind text =>
    intro depth s s' run bound
    obtain ⟨read, -⟩ := Yields.single_iff.1 run
    show primary _ s = _
    rw [primary, bind_of_ok read]
    simp only [kind, text]
    rfl
  | parentheses opened _ closed ih =>
    intro depth s s' run bound
    obtain ⟨deeper, s₁, s₂, rfl, opening, -, inside, closing⟩ := ih.enclosed run bound
    exact .parentheses opening opened inside closing closed
  | emptyArray opened closed =>
    intro depth s s' run bound
    obtain ⟨s₁, read, -, rest⟩ := Yields.cons_iff.1 run
    obtain ⟨read', -⟩ := Yields.single_iff.1 rest
    exact .emptyArray read opened read' closed
  | array opened derived closed ih =>
    intro depth s s' run bound
    obtain ⟨deeper, s₁, s₂, rfl, opening, between, inside, closing⟩ := ih.enclosed run bound
    have start := Follows.of_derives derived between fun _ starts => starts.1
    exact .array opening opened start inside closing closed
  | emptyMap opened closed =>
    intro depth s s' run bound
    obtain ⟨s₁, read, -, rest⟩ := Yields.cons_iff.1 run
    obtain ⟨read', -⟩ := Yields.single_iff.1 rest
    exact .emptyMap read opened read' closed
  | map opened derived closed ih =>
    intro depth s s' run bound
    obtain ⟨deeper, s₁, s₂, rfl, opening, between, inside, closing⟩ := ih.enclosed run bound
    have start := Follows.of_derives derived between fun _ starts => starts
    exact .map opening opened start inside closing closed
  | emptyChoice opened opened' closed closed' =>
    intro depth s s' run bound
    obtain ⟨s₁, read, -, rest⟩ := Yields.cons_iff.1 run
    obtain ⟨s₂, read', -, tail⟩ := Yields.cons_iff.1 rest
    obtain ⟨s₃, last, -, tail'⟩ := Yields.cons_iff.1 tail
    obtain ⟨last', -⟩ := Yields.single_iff.1 tail'
    exact .emptyChoice read opened read' opened' last closed last' closed'
  | choice opened opened' derived closed closed' ih =>
    intro depth s s' run bound
    obtain ⟨deeper, s₁, s₂, s₃, s₄, rfl, opening, opening', between, inside, closing, closing'⟩ :=
      ih.doubly_enclosed run bound
    have start := Follows.of_derives derived between fun _ starts => starts.2
    exact .choice opening opened opening' opened' start inside closing closed closing' closed'
  | item _ ih => exact fun depth s s' run bound => (ih depth s s' run bound).item
  | items _ comma _ ihl ihr =>
    intro depth s s' run bound
    obtain ⟨s₁, s₂, before, read, last, less⟩ := ihl.around ihr run bound
    exact before.items read comma last less
  | keyed key colon _ ih =>
    intro depth s s' run bound
    obtain ⟨s₁, read, -, rest⟩ := Yields.cons_iff.1 run
    obtain ⟨s₂, read', -, value⟩ := Yields.cons_iff.1 rest
    rw [List.length_cons, List.length_cons] at bound
    exact .keyed read key read' colon (ih depth _ _ value (by omega))
  | entry _ ih =>
    exact fun depth s s' run bound stop => separated_of_item (ih depth s s' run bound stop)
  | entries _ comma _ ihl ihr =>
    intro depth s s' run bound
    obtain ⟨s₁, s₂, before, read, last, less⟩ := ihl.around ihr run bound
    exact before.entries read comma last less
  | unconditional _ ih => exact fun depth s s' run bound => .unconditional (ih depth s s' run bound)
  | guarded _ arrow _ ihl ihr =>
    intro depth s s' run bound
    obtain ⟨s₁, s₂, condition, read, value, -⟩ := ihl.around ihr run bound
    exact condition.guarded read arrow value
  | element _ ih =>
    exact fun depth s s' run bound stop => separated_of_item (ih depth s s' run bound stop)
  | elements _ comma _ ihl ihr =>
    intro depth s s' run bound
    obtain ⟨s₁, s₂, before, read, last, less⟩ := ihl.around ihr run bound
    exact before.elements read comma last less

/-- A derivation that nothing can go on with is read as what it derives. -/
theorem expression_of_derives [LawfulTokenSource σ] (derived : Derives ts (.operand 1 e))
    (run : Yields s ts s') (stop : Follows (Token.Kind.stops 1) s') : expression s = .ok e s' := by
  have bound := run.length_add_unread_le
  obtain ⟨t, us, rfl, -⟩ := derived.starts
  rw [List.length_cons] at bound
  obtain ⟨depth, same⟩ := Nat.exists_eq_add_one_of_ne_zero (n := unread s) (by omega)
  show expressionWithin (unread s) s = _
  rw [same]
  refine (found_of_derives derived depth _ _ run ?_).expressionWithin stop
  rw [List.length_cons]
  omega

end Grammar

/-- No sequence of tokens derives two selectors. -/
theorem Derives.unambiguous {a b : Selector} (left : Derives ts (.operand 1 a))
    (right : Derives ts (.operand 1 b)) : a = b := by
  have run := yields_list left.kind_ne_endOfInput
  have stop : Follows (σ := List Token) (Token.Kind.stops 1) [] :=
    .of_next (t := ⟨.endOfInput, "", .start⟩) rfl (Token.Kind.stops_one_of (by simp))
  have first := Grammar.expression_of_derives left run stop
  have second := Grammar.expression_of_derives right run stop
  rw [first] at second
  cases second
  rfl

end Quaked.Selector

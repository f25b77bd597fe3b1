import Quaked.Proofs.Selector.Lexing
import Quaked.Proofs.Selector.Soundness
import Quaked.Proofs.Token.InStep

/-!
# Selectors in step

At aligned cursors the grammar of selectors reads the same selector, or fails for the same cause at
positions of aligned cursors, where the cause is found. Each production is in step if the reader of
what is nested in it is. There are two places that refuse a token because an expression has to start
there. In the one no operator in front of an operand is left, since the loop over them has ended; in
the other nothing is left at all, since each nesting has taken a token from as many as there were. So
a token that is refused is none that an expression can start with.

The productions are compared over two readers of what is nested, and with any relation of failures
that takes in those of tokens: over one reader they are in step wherever cursors are aligned, over two
at one cursor they do the same.
-/

namespace Quaked.Selector

open Text TokenSource

variable {R S : Cursor → Cursor → Prop} {t t' : Token} {wanted : Token.Kind} {cs : List Char}
  {c d c' d' : Cursor}

/-! ### Tokens -/

namespace Token

/-- Both tokens are the same but for their positions, which are those of related cursors, and the
first one starts there. -/
def Same (R : Cursor → Cursor → Prop) (t t' : Token) : Prop :=
  Marks R t.At t.position t'.position ∧ t' = { t with position := t'.position }

theorem Same.kind (h : Same R t t') : t'.kind = t.kind := by rw [h.2]

theorem Same.text (h : Same R t t') : t'.text = t.text := by rw [h.2]

theorem Same.description (h : Same R t t') : t'.description = t.description := by
  rw [Token.description, h.kind, h.text, Token.description]

/-- A token of another kind is to blame where it stands. -/
theorem Same.blames (h : Same R t t') (other : t.kind ≠ wanted) :
    Blames R (mismatch wanted.title t) (mismatch wanted.title t') := by
  unfold mismatch
  rw [h.description]
  exact .of_found (h.1.mono id fun here => .token (.other here other))

/-- So is a token that no expression starts with. -/
theorem Same.blames_expression (h : Same R t t') (other : t.kind ∉ Token.Kind.starters) :
    Blames R (mismatch "expression" t) (mismatch "expression" t') := by
  unfold mismatch
  rw [h.description]
  refine .of_found (h.1.mono id fun here => .token (.noExpression here ?_))
  intro ts e derived
  obtain ⟨_, _, same, starts⟩ := derived.mem_starters
  cases same
  exact other starts

/-- Behind white space stands what stands in front of it. -/
theorem next_skip_run (c : Cursor) : next (c.skip (c.run isSpace)) = next c := by
  have passed : gap (c.rest.drop (gap c.rest)) = 0 := by
    have stop := List.head?_dropWhile_not isSpace c.rest
    rw [gap, gap, drop_length_takeWhile]
    cases left : c.rest.dropWhile isSpace with
    | nil => rfl
    | cons ch behind =>
      rw [left] at stop
      simpa using stop
  exact Reading.token_skip_gap passed

/-- A character that starts no token is the one that is told. -/
theorem head?_of_lexeme_unexpected {ch : Char} (h : lexeme cs = .unexpected ch) :
    cs.head? = some ch := by
  cases cs with
  | nil => cases h
  | cons first behind =>
    unfold lexeme at h
    dsimp only at h
    split at h
    · split at h <;> cases h
    split at h
    · cases h
    split at h
    · cases h
    split at h
    · cases h
    unfold markLexeme at h
    split at h <;> cases h
    simp_all

theorem quote_of_lexeme_unterminated (h : lexeme cs = .unterminated) :
    ∃ behind, cs = '"' :: behind ∧ interior? behind = none := by
  cases cs with
  | nil => cases h
  | cons first behind =>
    unfold lexeme at h
    dsimp only at h
    split at h
    · rename_i quote
      subst quote
      split at h
      · cases h
      · rename_i endless
        exact ⟨behind, rfl, endless⟩
    split at h
    · cases h
    split at h
    · cases h
    split at h
    · cases h
    unfold markLexeme at h
    split at h <;> cases h

/-- A token starts behind the white space in front of it. -/
theorem at_of_next (h : next c = .ok t c') : t.At (c.skip (c.run isSpace)) := by
  refine ⟨?_, c', (next_skip_run c).trans h⟩
  obtain ⟨n, -, is, -⟩ := next_eq_ok_iff.1 h
  rw [is]

/-- At related cursors the same token is read, or none for the same cause. -/
theorem inStep_next (aligned : Aligned R) :
    InStep R (Blames R) (Same R) Token.next Token.next := by
  intro c d related
  have passed : d.run isSpace = c.run isSpace := by rw [Cursor.run, aligned.rest related, Cursor.run]
  have start := aligned.skip (c.run isSpace) related
  cases run : next c with
  | ok t c' =>
    have here := at_of_next run
    obtain ⟨n, lexed, is, rfl⟩ := next_eq_ok_iff.1 run
    have run' : next d = .ok { t with position := (d.skip (c.run isSpace)).position }
        ((d.skip (c.run isSpace)).skip n) := by
      rw [next_eq_ok_iff, aligned.rest related, passed]
      refine ⟨n, lexed, ?_, rfl⟩
      rw [is]
    rw [run']
    exact .ok ⟨⟨_, _, start, here, here.1, rfl⟩, rfl⟩ (aligned.skip n start)
  | error e c' =>
    have start : R (c.skip (gap c.rest)) (d.skip (gap c.rest)) := start
    unfold next Reading.token at run ⊢
    dsimp only at run ⊢
    rw [aligned.rest related, aligned.rest start]
    split at run
    · cases run
    · rename_i ch lexed
      cases run
      exact .error (.of_found (.of_related start
        (.character (head?_of_lexeme_unexpected lexed)))) start
    · rename_i lexed
      cases run
      obtain ⟨behind, quote, endless⟩ := quote_of_lexeme_unterminated lexed
      refine .error (.of_found (.of_related start (.unterminated quote endless))) ?_
      rw [Cursor.toEnd, Cursor.toEnd, aligned.unread _ _ start]
      exact aligned.skip _ start

end Token

/-! ### Parts of productions -/

section Parts

variable {α : Type} (aligned : Aligned R)
include aligned

theorem inStep_next :
    InStep R (Blames R) (Token.Same R) (next : Reading Token) (next : Reading Token) :=
  Token.inStep_next aligned

theorem inStep_peek :
    InStep R (Blames R) (Token.Same R) (peek : Reading Token) (peek : Reading Token) :=
  (inStep_next aligned).ahead

theorem inStep_nextOf (kind : Token.Kind) :
    InStep R (Blames R) (Token.Same R) (nextOf kind : Reading Token) (nextOf kind) := by
  refine (inStep_next aligned).bind fun t t' same => ?_
  rw [same.kind]
  split
  · exact .pure same
  · rename_i other
    exact fun _ _ related => .error (same.blames other) related

namespace Grammar

theorem inStep_accept (kind : Token.Kind) :
    InStep R (Blames R) Eq (accept kind : Reading Bool) (accept kind) := by
  refine (inStep_peek aligned).bind fun t t' same => ?_
  rw [same.kind]
  split
  · exact (inStep_next aligned).bind fun _ _ _ => .pure rfl
  · exact .pure rfl

theorem inStep_operator? (meaning? : Token.Kind → Option α) :
    InStep R (Blames R) Eq (operator? meaning? : Reading (Option α)) (operator? meaning?) := by
  refine (inStep_peek aligned).bind fun t t' same => ?_
  rw [same.kind]
  split
  · exact (inStep_next aligned).bind fun _ _ _ => .pure rfl
  · exact .pure rfl

section Failures

variable {E : Error → Error → Prop} (fails : ∀ {e e'}, Blames R e e' → E e e')
include fails

section Item

variable {item item' : Reading α} (inner : InStep R E Eq item item')
include inner

theorem inStep_anotherItem (items : List α) :
    InStep R E Eq (anotherItem item items) (anotherItem item' items) := by
  refine ((inStep_accept aligned .comma).imp fails).bind_eq fun more => ?_
  split
  · exact inner.bind_eq fun _ => .pure rfl
  · exact .pure rfl

theorem inStep_separated : InStep R E Eq (separated item) (separated item') :=
  inner.bind_eq fun first =>
    .iterate_eq aligned.unread (inStep_anotherItem aligned fails inner) [first]

end Item

section Operand

variable {operand operand' : Reading Selector} (inner : InStep R E Eq operand operand')
include inner

theorem inStep_chain (precedence : Nat) :
    InStep R E Eq (chain precedence operand) (chain precedence operand') := by
  refine inner.bind_eq fun first => .iterate_eq aligned.unread (fun left => ?_) first
  refine ((inStep_operator? aligned _).imp fails).bind_eq fun op => ?_
  split
  · exact inner.bind_eq fun _ => .pure rfl
  · exact .pure rfl

theorem inStep_pair (precedence : Nat) :
    InStep R E Eq (pair precedence operand) (pair precedence operand') := by
  refine inner.bind_eq fun left => ((inStep_operator? aligned _).imp fails).bind_eq fun op => ?_
  split
  · exact inner.bind_eq fun _ => .pure rfl
  · exact .pure rfl

/-- An expression over the reader of its operands: all levels between the two. -/
def ofOperands (operand : Reading Selector) : Reading Selector :=
  chain 1 (chain 2 (pair 3 (chain 4 operand)))

theorem inStep_ofOperands : InStep R E Eq (ofOperands operand) (ofOperands operand') := by
  have comparison := inStep_pair aligned fails (inStep_chain aligned fails inner 4) 3
  exact inStep_chain aligned fails (inStep_chain aligned fails comparison 2) 1

end Operand

/-! ### Productions -/

section Nested

variable {nested nested' : Reading Selector} (inner : InStep R E Eq nested nested')
include inner

theorem inStep_array : InStep R E Eq (array nested) (array nested') := by
  refine ((inStep_accept aligned _).imp fails).bind_eq fun empty => ?_
  split
  · exact .pure rfl
  · refine (inStep_separated aligned fails inner).bind_eq fun items => ?_
    exact ((inStep_nextOf aligned _).imp fails).bind fun _ _ _ => .pure rfl

theorem inStep_entry : InStep R E Eq (entry nested) (entry nested') := by
  refine ((inStep_nextOf aligned _).imp fails).bind fun key key' same => ?_
  refine ((inStep_nextOf aligned _).imp fails).bind fun _ _ _ => inner.bind_eq fun e => ?_
  unfold unquoted
  rw [same.text]
  exact .pure rfl

theorem inStep_map : InStep R E Eq (map nested) (map nested') := by
  refine ((inStep_accept aligned _).imp fails).bind_eq fun empty => ?_
  split
  · exact .pure rfl
  · refine (inStep_separated aligned fails (inStep_entry aligned fails inner)).bind_eq fun entries => ?_
    exact ((inStep_nextOf aligned _).imp fails).bind fun _ _ _ => .pure rfl

theorem inStep_element : InStep R E Eq (element nested) (element nested') := by
  refine inner.bind_eq fun condition =>
    ((inStep_accept aligned _).imp fails).bind_eq fun guarded => ?_
  split
  · exact inner.bind_eq fun _ => .pure rfl
  · exact .pure rfl

theorem inStep_choice : InStep R E Eq (choice nested) (choice nested') := by
  have closing (elements : List Selector) : InStep R E Eq
      (do
        let _ ← nextOf (σ := Cursor) .closeBrace
        let _ ← nextOf (σ := Cursor) .closeBrace
        return Selector.choice elements)
      (do
        let _ ← nextOf (σ := Cursor) .closeBrace
        let _ ← nextOf (σ := Cursor) .closeBrace
        return Selector.choice elements) :=
    ((inStep_nextOf aligned _).imp fails).bind fun _ _ _ =>
      ((inStep_nextOf aligned _).imp fails).bind fun _ _ _ => .pure rfl
  refine ((inStep_peek aligned).imp fails).bind fun t t' same => ?_
  rw [same.kind]
  split
  · exact closing []
  · exact (inStep_separated aligned fails (inStep_element aligned fails inner)).bind_eq closing

end Nested
end Failures
end Grammar
end Parts

namespace Grammar

/-- Signs are passed up to a token that is none. -/
theorem noSign_of_iterate {ops : List UnaryOp} (h : iterate unread anotherSign [] c = .ok ops c') :
    ∃ t c₁, next c' = .ok t c₁ ∧ t.kind.unaryOp? = none := by
  rw [iterate_eq_ok_iff unread_anotherSign] at h
  generalize ([] : List UnaryOp) = signs at h
  induction h with
  | more _ _ ih => exact ih
  | last step =>
    obtain ⟨op, c₁, marked, rest⟩ := bind_eq_ok_iff.1 step
    cases op with
    | some op => cases (pure_eq_ok_iff.1 rest).1
    | none =>
      obtain ⟨rfl, t, c₂, read, means⟩ := operator?_eq_none_iff.1 marked
      obtain ⟨-, rfl⟩ := pure_eq_ok_iff.1 rest
      exact ⟨t, c₂, read, means⟩

/-- Refusing a token that no operand starts with is in step. -/
theorem inStep_refuse {A : Selector → Selector → Prop} (same : Token.Same R t t')
    (other : t.kind ∉ Token.Kind.starters) :
    InStep R (Blames R) A (refuse (σ := Cursor) t) (refuse t') :=
  fun _ _ related => .error (same.blames_expression other) related

section Nested

variable {nested nested' : Reading Selector} {E : Error → Error → Prop}
  (aligned : Aligned R) (aligned' : Aligned S) (fails : ∀ {e e'}, Blames R e e' → E e e')
  (inner : InStep S E Eq nested nested') (sub : ∀ {c d}, S c d → R c d)
  (deeper : ∀ {c d t c' d'}, R c d → next c = .ok t c' → t.kind ≠ .endOfInput → R c' d' → S c' d')
include aligned aligned' fails inner sub deeper

/-- Behind a token that is no sign. What is nested is read with less left than there was. -/
theorem agree_primary (related : R c d)
    (noSign : ∃ t c₁, next c = .ok t c₁ ∧ t.kind.unaryOp? = none) :
    Agree R E Eq (primary nested c) (primary nested' d) := by
  have fails' {e e' : Error} (blames : Blames S e e') : E e e' := fails (blames.mono sub)
  refine ((inStep_next aligned).imp fails c d related).bind ?_
  intro t t' c' d' read _ same related'
  obtain ⟨_, _, read', means⟩ := noSign
  cases read.symm.trans read'
  have lift {x y : Reading Selector} (h : InStep S E Eq x y) (more : t.kind ≠ .endOfInput) :
      Agree R E Eq (x c') (y d') :=
    (h c' d' (deeper related read more related')).mono sub id id
  rw [same.kind]
  cases kind : t.kind with
  | string =>
    unfold unquoted
    rw [same.text]
    exact .ok rfl related'
  | number =>
    rw [same.text]
    cases Number.ofString? t.text with
    | some x => exact .ok rfl related'
    | none => exact (InStep.complain _ same.1).imp fails c' d' related'
  | boolean =>
    rw [same.text]
    exact .ok rfl related'
  | null => exact .ok rfl related'
  | name =>
    rw [same.text]
    exact .ok rfl related'
  | openParen =>
    refine lift (inner.bind_eq fun e => ?_) (by simp [kind])
    exact ((inStep_nextOf aligned' _).imp fails').bind fun _ _ _ => .pure rfl
  | openBracket => exact lift (inStep_array aligned' fails' inner) (by simp [kind])
  | openBrace =>
    refine lift (((inStep_accept aligned' _).imp fails').bind_eq fun second => ?_) (by simp [kind])
    split
    · exact inStep_choice aligned' fails' inner
    · exact inStep_map aligned' fails' inner
  | not =>
    rw [kind] at means
    cases means
  | minus =>
    rw [kind] at means
    cases means
  | _ =>
    exact (inStep_refuse same (by simp [kind, Token.Kind.starters])).imp fails c' d' related'

theorem inStep_unary : InStep R E Eq (unary nested) (unary nested') := by
  have signs : InStep R E Eq (iterate unread (anotherSign (σ := Cursor)) [])
      (iterate unread anotherSign []) := by
    refine .iterate_eq aligned.unread (fun ops => ?_) []
    refine ((inStep_operator? aligned _).imp fails).bind_eq fun op => ?_
    split
    · exact .pure rfl
    · exact .pure rfl
  intro c d related
  refine (signs c d related).bind ?_
  rintro ops _ c' d' read _ rfl related'
  refine (agree_primary aligned aligned' fails inner sub deeper related'
    (noSign_of_iterate read)).bind ?_
  rintro operand _ _ _ _ _ rfl related''
  exact .ok rfl related''

theorem inStep_disjunction : InStep R E Eq (disjunction nested) (disjunction nested') :=
  inStep_ofOperands aligned fails (inStep_unary aligned aligned' fails inner sub deeper)

end Nested

/-- The cursors are related, and no more is left than the depth. -/
def Within (R : Cursor → Cursor → Prop) (depth : Nat) (c d : Cursor) : Prop :=
  R c d ∧ c.unread ≤ depth

theorem Within.aligned (aligned : Aligned R) (depth : Nat) : Aligned (Within R depth) where
  rest related := aligned.rest related.1
  skip n related := by
    refine ⟨aligned.skip n related.1, ?_⟩
    rw [Cursor.unread_skip]
    exact Nat.le_trans (Nat.sub_le _ _) related.2

theorem inStep_expressionWithin (aligned : Aligned R) (depth : Nat) :
    InStep (Within R depth) (Blames (Within R depth)) Eq
      (expressionWithin depth : Reading Selector) (expressionWithin depth) := by
  induction depth with
  | zero =>
    intro c d related
    refine (inStep_next (Within.aligned aligned 0) c d related).bind ?_
    intro t t' c' d' read _ same related'
    refine inStep_refuse same ?_ c' d' related'
    -- a token that is not the end would leave less than nothing
    have last : t.kind = .endOfInput := by
      by_contra more
      have less : c'.unread < c.unread := LawfulTokenSource.unread_next read more
      exact absurd (Nat.lt_of_lt_of_le less related.2) (Nat.not_lt_zero _)
    simp [last, Token.Kind.starters]
  | succ depth ih =>
    have wider {c d : Cursor} (related : Within R depth c d) : Within R (depth + 1) c d :=
      ⟨related.1, Nat.le_succ_of_le related.2⟩
    refine inStep_disjunction (Within.aligned aligned _) (Within.aligned aligned _) id
      (ih.imp (·.mono wider)) wider ?_
    rintro c d t c' d' ⟨-, most⟩ read more ⟨related', -⟩
    have less : c'.unread < c.unread := LawfulTokenSource.unread_next read more
    exact ⟨related', Nat.le_of_lt_succ (Nat.lt_of_lt_of_le less most)⟩

/-- At related cursors the same expression is read, or none for the same cause. -/
theorem inStep_expression (aligned : Aligned R) :
    InStep R (Blames R) Eq (expression : Reading Selector) expression := by
  intro c d related
  unfold expression
  have level : unread d = unread c := aligned.unread c d related
  rw [level]
  refine (inStep_expressionWithin aligned _ c d ⟨related, Nat.le_refl _⟩).mono ?_ ?_ id
  · exact fun related => related.1
  · exact fun blames => blames.mono fun related => related.1

end Grammar
end Quaked.Selector

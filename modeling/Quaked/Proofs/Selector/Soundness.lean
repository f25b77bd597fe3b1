import Quaked.Proofs.Selector.Derivation
import Quaked.Proofs.Selector.Source

/-!
# What is read is derived

Whatever the grammar reads, the tokens it has read derive. Each production keeps this if the readers
it is given do (`Sound`), so the statement climbs the levels one production at a time, and the depth
of nesting is the only induction.

The parts of productions come first: what `accept`, `operator?` and `nextOf` do is said by the next
token alone. A loop keeps as its invariant that the tokens it has read derive what it has so far; the
loop over signs, whose operand is still to come, that they turn any derivation into one.

* `sound_expression`: the statement for a whole expression.
-/

namespace Quaked.Selector

open Text TokenSource

variable {σ : Type} [TokenSource σ] {s s' : σ} {t : Token} {α : Type}

/-! ### Parts of productions -/

theorem peek_eq_ok_iff : peek s = .ok t s' ↔ s' = s ∧ ∃ s₁, next s = .ok t s₁ :=
  Reading.ahead_eq_ok_iff

theorem peek_of_next {s₁ : σ} (h : next s = .ok t s₁) : peek s = .ok t s :=
  Reading.ahead_of_ok h

theorem nextOf_eq_ok_iff {kind : Token.Kind} :
    nextOf kind s = .ok t s' ↔ next s = .ok t s' ∧ t.kind = kind := by
  unfold nextOf
  constructor
  · intro h
    obtain ⟨u, s₁, read, h⟩ := bind_eq_ok_iff.1 h
    split at h
    · rename_i is
      obtain ⟨rfl, rfl⟩ := pure_eq_ok_iff.1 h
      exact ⟨read, is⟩
    · exact absurd h throw_ne_ok
  · rintro ⟨read, is⟩
    rw [bind_of_ok read, if_pos is]
    rfl

namespace Grammar

theorem accept_eq_true_iff {kind : Token.Kind} :
    accept kind s = .ok true s' ↔ ∃ t, next s = .ok t s' ∧ t.kind = kind := by
  unfold accept
  constructor
  · intro h
    obtain ⟨t, s₁, ahead, rest⟩ := bind_eq_ok_iff.1 h
    obtain ⟨rfl, s₂, read⟩ := peek_eq_ok_iff.1 ahead
    split at rest
    · rename_i is
      rw [bind_of_ok read] at rest
      obtain ⟨-, rfl⟩ := pure_eq_ok_iff.1 rest
      exact ⟨t, read, is⟩
    · cases (pure_eq_ok_iff.1 rest).1
  · rintro ⟨t, read, is⟩
    rw [bind_of_ok (peek_of_next read), if_pos is, bind_of_ok read]
    rfl

theorem accept_eq_false_iff {kind : Token.Kind} :
    accept kind s = .ok false s' ↔ s' = s ∧ ∃ t s₁, next s = .ok t s₁ ∧ t.kind ≠ kind := by
  unfold accept
  constructor
  · intro h
    obtain ⟨t, s₁, ahead, rest⟩ := bind_eq_ok_iff.1 h
    obtain ⟨rfl, s₂, read⟩ := peek_eq_ok_iff.1 ahead
    split at rest
    · rw [bind_of_ok read] at rest
      cases (pure_eq_ok_iff.1 rest).1
    · rename_i isNot
      exact ⟨(pure_eq_ok_iff.1 rest).2.symm, t, s₂, read, isNot⟩
  · rintro ⟨rfl, t, s₁, read, isNot⟩
    rw [bind_of_ok (peek_of_next read), if_neg isNot]
    rfl

section Operator

variable {meaning? : Token.Kind → Option α} {op : α}

theorem operator?_eq_some_iff :
    operator? meaning? s = .ok (some op) s' ↔
      ∃ t, next s = .ok t s' ∧ meaning? t.kind = some op := by
  unfold operator?
  constructor
  · intro h
    obtain ⟨t, s₁, ahead, rest⟩ := bind_eq_ok_iff.1 h
    obtain ⟨rfl, s₂, read⟩ := peek_eq_ok_iff.1 ahead
    cases means : meaning? t.kind with
    | none =>
      simp only [means] at rest
      cases (pure_eq_ok_iff.1 rest).1
    | some op' =>
      simp only [means] at rest
      rw [bind_of_ok read] at rest
      obtain ⟨same, rfl⟩ := pure_eq_ok_iff.1 rest
      cases same
      exact ⟨t, read, means⟩
  · rintro ⟨t, read, means⟩
    rw [bind_of_ok (peek_of_next read)]
    simp only [means]
    rw [bind_of_ok read]
    rfl

theorem operator?_eq_none_iff :
    operator? meaning? s = .ok none s' ↔
      s' = s ∧ ∃ t s₁, next s = .ok t s₁ ∧ meaning? t.kind = none := by
  unfold operator?
  constructor
  · intro h
    obtain ⟨t, s₁, ahead, rest⟩ := bind_eq_ok_iff.1 h
    obtain ⟨rfl, s₂, read⟩ := peek_eq_ok_iff.1 ahead
    cases means : meaning? t.kind with
    | none =>
      simp only [means] at rest
      exact ⟨(pure_eq_ok_iff.1 rest).2.symm, t, s₂, read, means⟩
    | some op =>
      simp only [means] at rest
      rw [bind_of_ok read] at rest
      cases (pure_eq_ok_iff.1 rest).1
  · rintro ⟨rfl, t, s₁, read, means⟩
    rw [bind_of_ok (peek_of_next read)]
    simp only [means]
    rfl

end Operator
end Grammar

/-! ### Marks of operators -/

theorem Token.Kind.unaryOp?_eq_some_iff {kind : Token.Kind} {op : UnaryOp} :
    kind.unaryOp? = some op ↔ kind = op.kind := by
  cases kind <;> cases op <;> decide

theorem Token.Kind.binaryOpAt?_eq_some_iff {p : Nat} {kind : Token.Kind} {op : BinaryOp} :
    kind.binaryOpAt? p = some op ↔ kind = op.kind ∧ op.precedence = p := by
  rw [binaryOpAt?, Option.filter_eq_some_iff, decide_eq_true_eq]
  refine and_congr_left fun _ => ?_
  cases kind <;> cases op <;> decide

/-- A sign in front of an operand leaves less to read. -/
theorem Grammar.unread_unaryOp? [LawfulTokenSource σ] {op : UnaryOp}
    (h : operator? Token.Kind.unaryOp? s = .ok (some op) s') : unread s' < unread s := by
  obtain ⟨t, read, means⟩ := operator?_eq_some_iff.1 h
  refine LawfulTokenSource.unread_next read ?_
  rw [Token.Kind.unaryOp?_eq_some_iff.1 means]
  exact op.kind_ne_endOfInput

/-- One more sign leaves less to read. -/
theorem Grammar.unread_anotherSign [LawfulTokenSource σ] {ops ops' : List UnaryOp}
    (h : anotherSign ops s = .ok (some ops') s') : unread s' < unread s := by
  obtain ⟨op, s₁, marked, rest⟩ := bind_eq_ok_iff.1 h
  cases op with
  | none => cases (pure_eq_ok_iff.1 rest).1
  | some op =>
    obtain ⟨-, rfl⟩ := pure_eq_ok_iff.1 rest
    exact unread_unaryOp? marked

namespace Derives

variable {op : BinaryOp} {as bs : List Token} {a b : Selector}

/-- Operators other than comparisons group to the left. -/
theorem grouped (left : Derives as (.operand op.precedence a)) (mark : t.kind = op.kind)
    (right : Derives bs (.operand (op.precedence + 1) b)) (grouping : op.precedence ≠ 3) :
    Derives (as ++ t :: bs) (.operand op.precedence (.binary op a b)) := by
  cases op with
  | or => exact .or left mark right
  | and => exact .and left mark right
  | bitAnd => exact .bitwise (.inl rfl) left mark right
  | bitOr => exact .bitwise (.inr rfl) left mark right
  | _ => exact absurd rfl grouping

/-- Comparisons stand between operands of the next level. -/
theorem compared (left : Derives as (.operand 4 a)) (mark : t.kind = op.kind)
    (right : Derives bs (.operand 4 b)) (comparing : op.precedence = 3) :
    Derives (as ++ t :: bs) (.operand 3 (.binary op a b)) := by
  refine .comparison ?_ left mark right
  revert comparing
  cases op <;> decide

end Derives

/-! ### Productions -/

/-- What a reader answers is derived from the tokens it has read. -/
def Sound (reader : EStateM Error σ α) (φ : α → Phrase) : Prop :=
  ∀ ⦃s a s'⦄, reader s = .ok a s' → ∃ ts, Yields s ts s' ∧ Derives ts (φ a)

namespace Grammar

variable {operand nested : EStateM Error σ Selector}

/-- A token that is not the end continues a run, and so does what comes behind it. -/
private theorem yields_mark {s₁ s₂ s₃ : σ} {as bs : List Token} (left : Yields s as s₁)
    (read : next s₁ = .ok t s₂) (more : t.kind ≠ .endOfInput) (right : Yields s₂ bs s₃) :
    Yields s (as ++ t :: bs) s₃ :=
  left.append (.cons read more right)

theorem sound_separated {item : EStateM Error σ α} {φ : α → Phrase} {ψ : List α → Phrase}
    (sound : Sound item φ) (one : ∀ {ts a}, Derives ts (φ a) → Derives ts (ψ [a]))
    (more : ∀ {ts us t as a}, Derives ts (ψ as) → t.kind = .comma → Derives us (φ a) →
      Derives (ts ++ t :: us) (ψ (as ++ [a]))) :
    Sound (separated item) ψ := by
  intro s as s' h
  obtain ⟨a, s₁, first, loop⟩ := bind_eq_ok_iff.1 h
  refine iterate_invariant (P := fun as s₂ => ∃ ts, Yields s ts s₂ ∧ Derives ts (ψ as)) ?_ ?_ ?_ loop
  · rintro as bs s₂ s₃ ⟨ts, run, derived⟩ step
    obtain ⟨comma, s₄, accepted, rest⟩ := bind_eq_ok_iff.1 step
    cases comma with
    | false => cases (pure_eq_ok_iff.1 rest).1
    | true =>
      obtain ⟨t, read, is⟩ := accept_eq_true_iff.1 accepted
      obtain ⟨b, s₅, second, rest⟩ := bind_eq_ok_iff.1 rest
      obtain ⟨same, rfl⟩ := pure_eq_ok_iff.1 rest
      cases same
      obtain ⟨us, run', derived'⟩ := sound second
      exact ⟨ts ++ t :: us, yields_mark run read (by simp [is]) run', more derived is derived'⟩
  · rintro as s₂ s₃ ⟨ts, run, derived⟩ step
    obtain ⟨comma, s₄, accepted, rest⟩ := bind_eq_ok_iff.1 step
    cases comma with
    | false =>
      obtain ⟨rfl, -⟩ := accept_eq_false_iff.1 accepted
      obtain ⟨-, rfl⟩ := pure_eq_ok_iff.1 rest
      exact ⟨ts, run, derived⟩
    | true =>
      obtain ⟨b, s₅, second, rest⟩ := bind_eq_ok_iff.1 rest
      cases (pure_eq_ok_iff.1 rest).1
  · obtain ⟨ts, run, derived⟩ := sound first
    exact ⟨ts, run, one derived⟩

theorem sound_chain {p : Nat} (positive : 0 < p) (grouping : p ≠ 3)
    (sound : Sound operand (.operand (p + 1))) : Sound (chain p operand) (.operand p) := by
  intro s e s' h
  obtain ⟨a, s₁, first, loop⟩ := bind_eq_ok_iff.1 h
  refine iterate_invariant
    (P := fun e s₂ => ∃ ts, Yields s ts s₂ ∧ Derives ts (.operand p e)) ?_ ?_ ?_ loop
  · rintro a e s₂ s₃ ⟨ts, run, derived⟩ step
    obtain ⟨op, s₄, marked, rest⟩ := bind_eq_ok_iff.1 step
    cases op with
    | none => cases (pure_eq_ok_iff.1 rest).1
    | some op =>
      obtain ⟨t, read, means⟩ := operator?_eq_some_iff.1 marked
      obtain ⟨mark, rfl⟩ := Token.Kind.binaryOpAt?_eq_some_iff.1 means
      obtain ⟨b, s₅, second, rest⟩ := bind_eq_ok_iff.1 rest
      obtain ⟨same, rfl⟩ := pure_eq_ok_iff.1 rest
      cases same
      obtain ⟨us, run', derived'⟩ := sound second
      refine ⟨ts ++ t :: us, yields_mark run read ?_ run', derived.grouped mark derived' grouping⟩
      rw [mark]
      exact op.kind_ne_endOfInput
  · rintro a s₂ s₃ ⟨ts, run, derived⟩ step
    obtain ⟨op, s₄, marked, rest⟩ := bind_eq_ok_iff.1 step
    cases op with
    | none =>
      obtain ⟨rfl, -⟩ := operator?_eq_none_iff.1 marked
      obtain ⟨-, rfl⟩ := pure_eq_ok_iff.1 rest
      exact ⟨ts, run, derived⟩
    | some op =>
      obtain ⟨b, s₅, second, rest⟩ := bind_eq_ok_iff.1 rest
      cases (pure_eq_ok_iff.1 rest).1
  · obtain ⟨ts, run, derived⟩ := sound first
    exact ⟨ts, run, .level positive derived⟩

theorem sound_pair (sound : Sound operand (.operand 4)) : Sound (pair 3 operand) (.operand 3) := by
  intro s e s' h
  obtain ⟨a, s₁, first, tail⟩ := bind_eq_ok_iff.1 h
  obtain ⟨op, s₂, marked, rest⟩ := bind_eq_ok_iff.1 tail
  obtain ⟨ts, run, derived⟩ := sound first
  cases op with
  | none =>
    obtain ⟨rfl, -⟩ := operator?_eq_none_iff.1 marked
    obtain ⟨rfl, rfl⟩ := pure_eq_ok_iff.1 rest
    exact ⟨ts, run, .level (by decide) derived⟩
  | some op =>
    obtain ⟨t, read, means⟩ := operator?_eq_some_iff.1 marked
    obtain ⟨mark, comparing⟩ := Token.Kind.binaryOpAt?_eq_some_iff.1 means
    obtain ⟨b, s₃, second, rest⟩ := bind_eq_ok_iff.1 rest
    obtain ⟨rfl, rfl⟩ := pure_eq_ok_iff.1 rest
    obtain ⟨us, run', derived'⟩ := sound second
    refine ⟨ts ++ t :: us, yields_mark run read ?_ run', derived.compared mark derived' comparing⟩
    rw [mark]
    exact op.kind_ne_endOfInput

/-- Behind the bracket of an array. -/
theorem sound_array (sound : Sound nested (.operand 1)) (opened : t.kind = .openBracket)
    {e : Selector} (h : array nested s = .ok e s') :
    ∃ ts, Yields s ts s' ∧ Derives (t :: ts) (.operand 6 e) := by
  obtain ⟨empty, s₁, accepted, rest⟩ := bind_eq_ok_iff.1 h
  cases empty with
  | true =>
    obtain ⟨u, read, closed⟩ := accept_eq_true_iff.1 accepted
    obtain ⟨rfl, rfl⟩ := pure_eq_ok_iff.1 rest
    exact ⟨[u], .single read (by simp [closed]), .emptyArray opened closed⟩
  | false =>
    obtain ⟨rfl, -⟩ := accept_eq_false_iff.1 accepted
    obtain ⟨es, s₂, items, rest⟩ := bind_eq_ok_iff.1 rest
    obtain ⟨u, s₃, last, rest⟩ := bind_eq_ok_iff.1 rest
    obtain ⟨rfl, rfl⟩ := pure_eq_ok_iff.1 rest
    obtain ⟨read, closed⟩ := nextOf_eq_ok_iff.1 last
    obtain ⟨ts, run, derived⟩ := sound_separated sound .item .items items
    exact ⟨ts ++ [u], run.append (.single read (by simp [closed])), .array opened derived closed⟩

/-- A key and its value. -/
theorem sound_entry (sound : Sound nested (.operand 1)) :
    Sound (entry nested) fun (key, e) => .entry key e := by
  intro s ⟨key, e⟩ s' h
  obtain ⟨t, s₁, first, rest⟩ := bind_eq_ok_iff.1 h
  obtain ⟨u, s₂, second, rest⟩ := bind_eq_ok_iff.1 rest
  obtain ⟨e', s₃, value, rest⟩ := bind_eq_ok_iff.1 rest
  obtain ⟨same, rfl⟩ := pure_eq_ok_iff.1 rest
  cases same
  obtain ⟨read, isKey⟩ := nextOf_eq_ok_iff.1 first
  obtain ⟨read', isColon⟩ := nextOf_eq_ok_iff.1 second
  obtain ⟨ts, run, derived⟩ := sound value
  exact ⟨t :: u :: ts, .cons read (by simp [isKey]) (.cons read' (by simp [isColon]) run),
    .keyed isKey isColon derived⟩

/-- Behind the brace of a map. -/
theorem sound_map (sound : Sound nested (.operand 1)) (opened : t.kind = .openBrace)
    {e : Selector} (h : map nested s = .ok e s') :
    ∃ ts, Yields s ts s' ∧ Derives (t :: ts) (.operand 6 e) := by
  obtain ⟨empty, s₁, accepted, rest⟩ := bind_eq_ok_iff.1 h
  cases empty with
  | true =>
    obtain ⟨u, read, closed⟩ := accept_eq_true_iff.1 accepted
    obtain ⟨rfl, rfl⟩ := pure_eq_ok_iff.1 rest
    exact ⟨[u], .single read (by simp [closed]), .emptyMap opened closed⟩
  | false =>
    obtain ⟨rfl, -⟩ := accept_eq_false_iff.1 accepted
    obtain ⟨es, s₂, entries, rest⟩ := bind_eq_ok_iff.1 rest
    obtain ⟨u, s₃, last, rest⟩ := bind_eq_ok_iff.1 rest
    obtain ⟨rfl, rfl⟩ := pure_eq_ok_iff.1 rest
    obtain ⟨read, closed⟩ := nextOf_eq_ok_iff.1 last
    obtain ⟨ts, run, derived⟩ := sound_separated (sound_entry sound) .entry .entries entries
    exact ⟨ts ++ [u], run.append (.single read (by simp [closed])), .map opened derived closed⟩

theorem sound_element (sound : Sound nested (.operand 1)) : Sound (element nested) .element := by
  intro s e s' h
  obtain ⟨c, s₁, condition, tail⟩ := bind_eq_ok_iff.1 h
  obtain ⟨arrow, s₂, accepted, rest⟩ := bind_eq_ok_iff.1 tail
  obtain ⟨ts, run, derived⟩ := sound condition
  cases arrow with
  | true =>
    obtain ⟨t, read, isArrow⟩ := accept_eq_true_iff.1 accepted
    obtain ⟨v, s₃, value, rest⟩ := bind_eq_ok_iff.1 rest
    obtain ⟨rfl, rfl⟩ := pure_eq_ok_iff.1 rest
    obtain ⟨us, run', derived'⟩ := sound value
    exact ⟨ts ++ t :: us, yields_mark run read (by simp [isArrow]) run',
      .guarded derived isArrow derived'⟩
  | false =>
    obtain ⟨rfl, -⟩ := accept_eq_false_iff.1 accepted
    obtain ⟨rfl, rfl⟩ := pure_eq_ok_iff.1 rest
    exact ⟨ts, run, .unconditional derived⟩

/-- Behind the two braces of a choice. -/
theorem sound_choice {t' : Token} (sound : Sound nested (.operand 1)) (opened : t.kind = .openBrace)
    (opened' : t'.kind = .openBrace) {e : Selector} (h : choice nested s = .ok e s') :
    ∃ ts, Yields s ts s' ∧ Derives (t :: t' :: ts) (.operand 6 e) := by
  obtain ⟨v, s₁, ahead, tail⟩ := bind_eq_ok_iff.1 h
  obtain ⟨rfl, s₂, -⟩ := peek_eq_ok_iff.1 ahead
  have ending {es : List Selector} {s₃ s' : σ}
      (h : (do let _ ← nextOf .closeBrace; let _ ← nextOf .closeBrace; return .choice es :
        EStateM Error σ Selector) s₃ = .ok e s') :
      e = .choice es ∧ ∃ u u', Yields s₃ [u, u'] s' ∧ u.kind = .closeBrace ∧
        u'.kind = .closeBrace := by
    obtain ⟨u, s₄, first, tail⟩ := bind_eq_ok_iff.1 h
    obtain ⟨u', s₅, second, tail⟩ := bind_eq_ok_iff.1 tail
    obtain ⟨rfl, rfl⟩ := pure_eq_ok_iff.1 tail
    obtain ⟨read, closed⟩ := nextOf_eq_ok_iff.1 first
    obtain ⟨read', closed'⟩ := nextOf_eq_ok_iff.1 second
    exact ⟨rfl, u, u', .cons read (by simp [closed]) (.single read' (by simp [closed'])), closed,
      closed'⟩
  split at tail
  · obtain ⟨es, s₃, none, tail⟩ := bind_eq_ok_iff.1 tail
    obtain ⟨rfl, rfl⟩ := pure_eq_ok_iff.1 none
    obtain ⟨rfl, u, u', run, closed, closed'⟩ := ending tail
    exact ⟨[u, u'], run, .emptyChoice opened opened' closed closed'⟩
  · obtain ⟨es, s₃, elements, tail⟩ := bind_eq_ok_iff.1 tail
    obtain ⟨rfl, u, u', run', closed, closed'⟩ := ending tail
    obtain ⟨ts, run, derived⟩ := sound_separated (sound_element sound) .element .elements elements
    exact ⟨ts ++ [u, u'], run.append run', .choice opened opened' derived closed closed'⟩

theorem sound_primary (sound : Sound nested (.operand 1)) : Sound (primary nested) (.operand 6) := by
  intro s e s' h
  obtain ⟨t, s₁, read, rest⟩ := bind_eq_ok_iff.1 h
  have more (kind : t.kind ≠ .endOfInput) {ts : List Token} (run : Yields s₁ ts s') :
      Yields s (t :: ts) s' := .cons read kind run
  cases kind : t.kind <;> simp only [kind] at rest
  case string =>
    obtain ⟨rfl, rfl⟩ := pure_eq_ok_iff.1 rest
    exact ⟨[t], more (by simp [kind]) (.nil _), .string kind⟩
  case number =>
    cases text : Number.ofString? (F := .double) t.text with
    | none =>
      simp only [text] at rest
      exact absurd rest Reading.fail_ne_ok
    | some x =>
      simp only [text] at rest
      obtain ⟨rfl, rfl⟩ := pure_eq_ok_iff.1 rest
      exact ⟨[t], more (by simp [kind]) (.nil _), .number kind text⟩
  case boolean =>
    obtain ⟨rfl, rfl⟩ := pure_eq_ok_iff.1 rest
    exact ⟨[t], more (by simp [kind]) (.nil _), .boolean kind⟩
  case null =>
    obtain ⟨rfl, rfl⟩ := pure_eq_ok_iff.1 rest
    exact ⟨[t], more (by simp [kind]) (.nil _), .null kind⟩
  case name =>
    obtain ⟨rfl, rfl⟩ := pure_eq_ok_iff.1 rest
    exact ⟨[t], more (by simp [kind]) (.nil _), .lookup kind⟩
  case openParen =>
    obtain ⟨e', s₂, inside, rest⟩ := bind_eq_ok_iff.1 rest
    obtain ⟨u, s₃, last, rest⟩ := bind_eq_ok_iff.1 rest
    obtain ⟨rfl, rfl⟩ := pure_eq_ok_iff.1 rest
    obtain ⟨read', closed⟩ := nextOf_eq_ok_iff.1 last
    obtain ⟨ts, run, derived⟩ := sound inside
    exact ⟨t :: ts ++ [u], more (by simp [kind]) (run.append (.single read' (by simp [closed]))),
      .parentheses kind derived closed⟩
  case openBracket =>
    obtain ⟨ts, run, derived⟩ := sound_array sound kind rest
    exact ⟨t :: ts, more (by simp [kind]) run, derived⟩
  case openBrace =>
    obtain ⟨two, s₂, accepted, tail⟩ := bind_eq_ok_iff.1 rest
    cases two with
    | true =>
      obtain ⟨t', read', kind'⟩ := accept_eq_true_iff.1 accepted
      obtain ⟨ts, run, derived⟩ := sound_choice sound kind kind' tail
      exact ⟨t :: t' :: ts, more (by simp [kind]) (.cons read' (by simp [kind']) run), derived⟩
    | false =>
      obtain ⟨rfl, -⟩ := accept_eq_false_iff.1 accepted
      obtain ⟨ts, run, derived⟩ := sound_map sound kind tail
      exact ⟨t :: ts, more (by simp [kind]) run, derived⟩
  all_goals exact absurd rest throw_ne_ok

theorem sound_unary (sound : Sound nested (.operand 1)) : Sound (unary nested) (.operand 5) := by
  intro s e s' h
  obtain ⟨ops, s₁, loop, tail⟩ := bind_eq_ok_iff.1 h
  obtain ⟨a, s₂, operand, rest⟩ := bind_eq_ok_iff.1 tail
  obtain ⟨rfl, rfl⟩ := pure_eq_ok_iff.1 rest
  have signs : ∃ ts, Yields s ts s₁ ∧ ∀ {us a}, Derives us (.operand 5 a) →
      Derives (ts ++ us) (.operand 5 (ops.foldl (fun e op => .unary op e) a)) := by
    refine iterate_invariant (P := fun (ops : List UnaryOp) s₁ => ∃ ts, Yields s ts s₁ ∧
      ∀ {us a}, Derives us (.operand 5 a) →
        Derives (ts ++ us) (.operand 5 (ops.foldl (fun e op => .unary op e) a))) ?_ ?_ ?_ loop
    · rintro ops ops' s₃ s₄ ⟨ts, run, derived⟩ step
      obtain ⟨op, s₅, marked, rest⟩ := bind_eq_ok_iff.1 step
      cases op with
      | none => cases (pure_eq_ok_iff.1 rest).1
      | some op =>
        obtain ⟨t, read, means⟩ := operator?_eq_some_iff.1 marked
        obtain ⟨same, rfl⟩ := pure_eq_ok_iff.1 rest
        cases same
        have mark := Token.Kind.unaryOp?_eq_some_iff.1 means
        have more : t.kind ≠ .endOfInput := by
          rw [mark]
          exact op.kind_ne_endOfInput
        refine ⟨ts ++ [t], run.append (.single read more), ?_⟩
        intro us a derived'
        rw [List.append_assoc]
        exact derived (.unary mark derived')
    · rintro ops s₃ s₄ ⟨ts, run, derived⟩ step
      obtain ⟨op, s₅, marked, rest⟩ := bind_eq_ok_iff.1 step
      cases op with
      | none =>
        obtain ⟨rfl, -⟩ := operator?_eq_none_iff.1 marked
        obtain ⟨-, rfl⟩ := pure_eq_ok_iff.1 rest
        exact ⟨ts, run, derived⟩
      | some op => cases (pure_eq_ok_iff.1 rest).1
    · exact ⟨[], .nil s, id⟩
  obtain ⟨ts, run, derived⟩ := signs
  obtain ⟨us, run', derived'⟩ := sound_primary sound operand
  exact ⟨ts ++ us, run.append run', derived (.level (by decide) derived')⟩

theorem sound_bitwise (sound : Sound nested (.operand 1)) : Sound (bitwise nested) (.operand 4) :=
  sound_chain (by decide) (by decide) (sound_unary sound)

theorem sound_comparison (sound : Sound nested (.operand 1)) :
    Sound (comparison nested) (.operand 3) :=
  sound_pair (sound_bitwise sound)

theorem sound_conjunction (sound : Sound nested (.operand 1)) :
    Sound (conjunction nested) (.operand 2) :=
  sound_chain (by decide) (by decide) (sound_comparison sound)

theorem sound_disjunction (sound : Sound nested (.operand 1)) :
    Sound (disjunction nested) (.operand 1) :=
  sound_chain (by decide) (by decide) (sound_conjunction sound)

theorem sound_expressionWithin (depth : Nat) :
    Sound (expressionWithin (σ := σ) depth) (.operand 1) := by
  induction depth with
  | zero =>
    intro s e s' h
    obtain ⟨t, s₁, -, rest⟩ := bind_eq_ok_iff.1 h
    exact absurd rest throw_ne_ok
  | succ depth ih => exact sound_disjunction ih

/-- The tokens that an expression is read from derive it. -/
theorem sound_expression : Sound (expression (σ := σ)) (.operand 1) := by
  intro s e s' h
  exact sound_expressionWithin (unread s) h

end Grammar
end Quaked.Selector

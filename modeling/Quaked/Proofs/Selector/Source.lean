import Quaked.Proofs.Reading
import Quaked.Selector.Source

/-!
# Runs of tokens

What a source of tokens holds in store is a relation: `Yields s ts s'` says that the tokens `ts`,
none of them the end, are read one after the other and lead from `s` to `s'`. A source is *lawful* if
a token other than the end leaves less to read, so that every run is finite and bounded by what is
left (`Yields.length_add_unread_le`). A list of tokens is a lawful source, and yields itself
(`yields_list`): what is true of every source is true of token sequences no text has.
-/

namespace Quaked.Selector

open Text TokenSource

/-- A token other than the end leaves less to read. -/
class LawfulTokenSource (σ : Type) [TokenSource σ] : Prop where
  unread_next {s s' : σ} {t : Token} (read : next s = .ok t s') (more : t.kind ≠ .endOfInput) :
    unread s' < unread s

variable {σ : Type} [TokenSource σ] {s s' s'' : σ} {t : Token} {ts us : List Token}

/-- The tokens `ts` are read one after the other, and none of them is the end. -/
inductive Yields : σ → List Token → σ → Prop where
  | nil (s : σ) : Yields s [] s
  | cons {s s' s'' : σ} {t : Token} {ts : List Token} (read : next s = .ok t s')
      (more : t.kind ≠ .endOfInput) (rest : Yields s' ts s'') : Yields s (t :: ts) s''

namespace Yields

/-- One token is a run. -/
theorem single (read : next s = .ok t s') (more : t.kind ≠ .endOfInput) : Yields s [t] s' :=
  .cons read more (.nil s')

/-- Two runs one behind the other are a run. -/
theorem append (first : Yields s ts s') (second : Yields s' us s'') : Yields s (ts ++ us) s'' := by
  induction first with
  | nil s => exact second
  | cons read more rest ih => exact .cons read more (ih second)

/-- A run over two lists of tokens passes a state between them. -/
theorem append_iff : Yields s (ts ++ us) s'' ↔ ∃ s', Yields s ts s' ∧ Yields s' us s'' := by
  constructor
  · intro h
    induction ts generalizing s with
    | nil => exact ⟨s, .nil s, h⟩
    | cons t ts ih =>
      cases h with
      | cons read more rest =>
        obtain ⟨s', first, second⟩ := ih rest
        exact ⟨s', .cons read more first, second⟩
  · rintro ⟨s', first, second⟩
    exact first.append second

theorem cons_iff :
    Yields s (t :: ts) s'' ↔
      ∃ s', next s = .ok t s' ∧ t.kind ≠ .endOfInput ∧ Yields s' ts s'' := by
  constructor
  · intro h
    cases h with
    | cons read more rest => exact ⟨_, read, more, rest⟩
  · rintro ⟨s', read, more, rest⟩
    exact .cons read more rest

theorem single_iff : Yields s [t] s' ↔ next s = .ok t s' ∧ t.kind ≠ .endOfInput := by
  constructor
  · intro h
    cases h with
    | cons read more rest =>
      cases rest
      exact ⟨read, more⟩
  · rintro ⟨read, more⟩
    exact single read more

/-- A run is no longer than what there was to read and is not left. -/
theorem length_add_unread_le [LawfulTokenSource σ] (h : Yields s ts s') :
    ts.length + unread s' ≤ unread s := by
  induction h with
  | nil s => simp
  | cons read more rest ih =>
    have less := LawfulTokenSource.unread_next read more
    rw [List.length_cons]
    omega

/-- A run in brackets: the first token, what is inside, and the last token. -/
theorem enclosed {u : Token} (h : Yields s (t :: ts ++ [u]) s'') :
    ∃ s₁ s₂, next s = .ok t s₁ ∧ Yields s₁ ts s₂ ∧ next s₂ = .ok u s'' := by
  obtain ⟨s₁, opening, -, rest⟩ := cons_iff.1 h
  obtain ⟨s₂, inside, last⟩ := append_iff.1 rest
  exact ⟨s₁, s₂, opening, inside, (single_iff.1 last).1⟩

/-- What a run starts with comes next. -/
theorem next_of_cons (h : Yields s (t :: ts) s'') : ∃ s', next s = .ok t s' := by
  obtain ⟨s', read, -⟩ := cons_iff.1 h
  exact ⟨s', read⟩

/-- A run with a token between two parts passes that token, which leaves less to read. -/
theorem around [LawfulTokenSource σ] (h : Yields s (ts ++ t :: us) s'') :
    ∃ s₁ s₂, Yields s ts s₁ ∧ next s₁ = .ok t s₂ ∧ Yields s₂ us s'' ∧ unread s'' < unread s₁ := by
  obtain ⟨s₁, first, rest⟩ := append_iff.1 h
  obtain ⟨s₂, read, more, second⟩ := cons_iff.1 rest
  have bound := rest.length_add_unread_le
  rw [List.length_cons] at bound
  exact ⟨s₁, s₂, first, read, second, by omega⟩

end Yields

/-! ### Lists of tokens -/

/-- Tokens can be read from a list of them. Behind the last one is the end. -/
instance : TokenSource (List Token) where
  next := fun
    | [] => .ok ⟨.endOfInput, "", .start⟩ []
    | t :: ts => .ok t ts
  unread := List.length

instance : LawfulTokenSource (List Token) where
  unread_next {s s' t} read more := by
    cases s with
    | nil =>
      cases read
      exact absurd rfl more
    | cons u us =>
      cases read
      exact Nat.lt_succ_self _

/-- A list of tokens yields itself. -/
theorem yields_list (h : ∀ t ∈ ts, t.kind ≠ .endOfInput) : Yields ts ts [] := by
  induction ts with
  | nil => exact .nil []
  | cons t ts ih =>
    refine .cons rfl (h t List.mem_cons_self) (ih ?_)
    intro u hu
    exact h u (List.mem_cons_of_mem t hu)

end Quaked.Selector

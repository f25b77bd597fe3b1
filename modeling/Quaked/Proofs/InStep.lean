import Quaked.Proofs.Reading

/-!
# Two readers in step

Two readers are in step if, wherever their states are related, both answer or both fail, what they
answer or fail with is related, and so are the states they leave. A relation says what two texts, or
two places of one text, have in common; a relation of a state with itself says what holds of every
state that is reached, so that an invariant is a special case.

* `Agree.bind`, `InStep.bind`, `InStep.iterate`, `InStep.ahead`: sequences, loops and looking ahead
  are in step if their parts are. Behind a part `Agree.bind` still knows how both runs of it went.
-/

namespace Quaked.Text

open EStateM (Result)

variable {ε σ τ α α' β β' : Type}

/-- Two results that answer both or fail both, with related answers, failures and states. -/
inductive Agree (R : σ → τ → Prop) (E : ε → ε → Prop) (A : α → α' → Prop) :
    Result ε σ α → Result ε τ α' → Prop where
  | ok {a : α} {a' : α'} {s : σ} {t : τ} (answers : A a a') (states : R s t) :
    Agree R E A (.ok a s) (.ok a' t)
  | error {e e' : ε} {s : σ} {t : τ} (failures : E e e') (states : R s t) :
    Agree R E A (.error e s) (.error e' t)

/-- In related states the readers come to results that agree. -/
def InStep (R : σ → τ → Prop) (E : ε → ε → Prop) (A : α → α' → Prop) (x : EStateM ε σ α)
    (y : EStateM ε τ α') : Prop :=
  ∀ s t, R s t → Agree R E A (x s) (y t)

variable {R R' : σ → τ → Prop} {E E' : ε → ε → Prop} {A A' : α → α' → Prop} {B : β → β' → Prop}
  {x : EStateM ε σ α} {y : EStateM ε τ α'} {f : α → EStateM ε σ β} {g : α' → EStateM ε τ β'}
  {s s' : σ} {t t' : τ} {r : Result ε σ α} {r' : Result ε τ α'}

namespace Agree

theorem of_ok {a : α} (h : Agree R E A (.ok a s) r') : ∃ a' t, r' = .ok a' t ∧ A a a' ∧ R s t := by
  cases h with
  | ok answers states => exact ⟨_, _, rfl, answers, states⟩

theorem of_error {e : ε} (h : Agree R E A (.error e s) r') :
    ∃ e' t, r' = .error e' t ∧ E e e' ∧ R s t := by
  cases h with
  | error failures states => exact ⟨_, _, rfl, failures, states⟩

theorem mono (h : Agree R E A r r') (states : ∀ {s t}, R s t → R' s t)
    (failures : ∀ {e e'}, E e e' → E' e e') (answers : ∀ {a a'}, A a a' → A' a a') :
    Agree R' E' A' r r' := by
  cases h with
  | ok such related => exact .ok (answers such) (states related)
  | error such related => exact .error (failures such) (states related)

/-- The states behind both readers are related. -/
theorem final (h : Agree R E A r r') : R (final r) (Text.final r') := by
  cases h with
  | ok _ related => exact related
  | error _ related => exact related

/-- A sequence agrees if its parts do, one behind the other. -/
theorem bind (first : Agree R E A (x s) (y t))
    (second : ∀ {a a' s' t'}, x s = .ok a s' → y t = .ok a' t' → A a a' → R s' t' →
      Agree R E B (f a s') (g a' t')) :
    Agree R E B ((x >>= f) s) ((y >>= g) t) := by
  cases run : x s with
  | ok a s' =>
    rw [run] at first
    obtain ⟨a', t', run', answers, states⟩ := first.of_ok
    rw [bind_of_ok run, bind_of_ok run']
    exact second run run' answers states
  | error e s' =>
    rw [run] at first
    obtain ⟨e', t', run', failures, states⟩ := first.of_error
    rw [bind_of_error run, bind_of_error run']
    exact .error failures states

end Agree

namespace InStep

theorem imp (h : InStep R E A x y) (failures : ∀ {e e'}, E e e' → E' e e') : InStep R E' A x y :=
  fun s t related => (h s t related).mono id failures id

theorem pure {a : α} {a' : α'} (answers : A a a') :
    InStep R E A (Pure.pure a : EStateM ε σ α) (Pure.pure a') :=
  fun _ _ related => .ok answers related

/-- A sequence is in step if its parts are. -/
theorem bind (first : InStep R E A x y) (second : ∀ a a', A a a' → InStep R E B (f a) (g a')) :
    InStep R E B (x >>= f) (y >>= g) := by
  intro s t related
  refine (first s t related).bind ?_
  intro a a' s' t' _ _ answers states
  exact second a a' answers s' t' states

/-- Looking ahead is in step if reading is. -/
theorem ahead (h : InStep R E A x y) : InStep R E A (Reading.ahead x) (Reading.ahead y) := by
  intro s t related
  have both := h s t related
  unfold Reading.ahead
  cases run : x s with
  | ok a s' =>
    rw [run] at both
    obtain ⟨a', t', run', answers, -⟩ := both.of_ok
    rw [run']
    exact .ok answers related
  | error e s' =>
    rw [run] at both
    obtain ⟨e', t', run', failures, states⟩ := both.of_error
    rw [run']
    exact .error failures states

/-- A loop is in step if its step is and related states have as much left to read. -/
theorem iterate {unread : σ → Nat} {unread' : τ → Nat} {step : α → EStateM ε σ (Option α)}
    {step' : α' → EStateM ε τ (Option α')} (level : ∀ s t, R s t → unread' t = unread s)
    (h : ∀ a a', A a a' → InStep R E (Option.Rel A) (step a) (step' a')) {a : α} {a' : α'}
    (start : A a a') : InStep R E A (Text.iterate unread step a) (Text.iterate unread' step' a') := by
  intro s t related
  have both := h a a' start s t related
  fun_induction Text.iterate unread step a s generalizing a' t with
  | case1 a s e s₁ run =>
    rw [run] at both
    obtain ⟨e', t₁, run', failures, states⟩ := both.of_error
    rw [iterate_of_error run']
    exact .error failures states
  | case2 a s s₁ run =>
    rw [run] at both
    obtain ⟨_, t₁, run', ⟨⟩, states⟩ := both.of_ok
    rw [iterate_of_none run']
    exact .ok start states
  | case3 a s b s₁ run less ih =>
    rw [run] at both
    obtain ⟨_, t₁, run', ⟨such⟩, states⟩ := both.of_ok
    rw [← level _ _ states, ← level _ _ related] at less
    rw [iterate_of_some run' less]
    exact ih such t₁ states (h b _ such s₁ t₁ states)
  | case4 a s b s₁ run more =>
    rw [run] at both
    obtain ⟨_, t₁, run', ⟨such⟩, states⟩ := both.of_ok
    rw [← level _ _ states, ← level _ _ related] at more
    rw [Text.iterate, run']
    dsimp only
    rw [if_neg more]
    exact .ok such states

/-- A sequence whose first part answers the same on both sides. -/
theorem bind_eq {g : α → EStateM ε τ β'} {y : EStateM ε τ α} (first : InStep R E Eq x y)
    (second : ∀ a, InStep R E B (f a) (g a)) : InStep R E B (x >>= f) (y >>= g) :=
  first.bind fun a _ same => same ▸ second a

/-- A loop whose step answers the same on both sides. -/
theorem iterate_eq {unread : σ → Nat} {unread' : τ → Nat} {step : α → EStateM ε σ (Option α)}
    {step' : α → EStateM ε τ (Option α)} (level : ∀ s t, R s t → unread' t = unread s)
    (h : ∀ a, InStep R E Eq (step a) (step' a)) (a : α) :
    InStep R E Eq (Text.iterate unread step a) (Text.iterate unread' step' a) := by
  refine iterate level ?_ rfl
  rintro a _ rfl s t related
  refine (h a s t related).mono id id ?_
  rintro answer _ rfl
  cases answer with
  | none => exact .none
  | some b => exact .some rfl

end InStep

end Quaked.Text

import Quaked.Text.Reading

/-!
# How readers run

A reader is taken apart by what it does when it succeeds. For each way to build one there is a lemma
that says when the whole succeeds and with what, so that later proofs speak about the parts and never
about the plumbing between them.

* `bind_eq_ok_iff`, `bind_eq_error_iff`, `bind_of_ok`: a sequence, backwards and forwards.
* `iterate_of_some`, `iterate_of_none`: one round of a loop.
* `Reading.exists_last`: what is read up to the last answer.
* `bind_of_same`, `iterate_of_same`: where the first part does the same.
* `iterate_invariant`: what every round of a loop keeps, the loop keeps.
* `iterate_eq_ok_iff`: a loop succeeds exactly with its rounds, one after the other.
* `InOrder`: things that stand one behind the other, and the loops that read them.
* `Keeps`: what holds before a reader holds behind it, also where it fails.
* `FailsOnly`: what holds of every failure of a reader.
* `Reads`: what a reader does in front of given characters, wherever they stand.
-/

namespace Quaked.Text

open EStateM (Result)

variable {ε σ α β : Type} {s s' s₁ : σ} {a : α} {b : β}

section Sequence

variable {x : EStateM ε σ α} {f : α → EStateM ε σ β}

/-- A sequence succeeds exactly if its parts do, one after the other. -/
theorem bind_eq_ok_iff :
    (x >>= f) s = .ok b s' ↔ ∃ a s₁, x s = .ok a s₁ ∧ f a s₁ = .ok b s' := by
  show EStateM.bind x f s = .ok b s' ↔ _
  unfold EStateM.bind
  constructor
  · intro h
    split at h
    · rename_i a s₁ hx
      exact ⟨a, s₁, hx, h⟩
    · cases h
  · rintro ⟨a, s₁, hx, hf⟩
    rw [hx]
    exact hf

/-- Behind a part that succeeds a sequence is what comes next. -/
theorem bind_of_ok (h : x s = .ok a s₁) : (x >>= f) s = f a s₁ := by
  show EStateM.bind x f s = _
  unfold EStateM.bind
  rw [h]

/-- A sequence fails with its first part. -/
theorem bind_of_error {e : ε} (h : x s = .error e s₁) : (x >>= f) s = .error e s₁ := by
  show EStateM.bind x f s = _
  unfold EStateM.bind
  rw [h]

/-- Where their first parts do the same two sequences do, if they go on alike. -/
theorem bind_of_same {y : EStateM ε σ α} (h : x s = y s') : (x >>= f) s = (y >>= f) s' := by
  show EStateM.bind x f s = EStateM.bind y f s'
  unfold EStateM.bind
  rw [h]

/-- A sequence fails if its first part does, or the second one behind it. -/
theorem bind_eq_error_iff {e : ε} :
    (x >>= f) s = .error e s' ↔
      x s = .error e s' ∨ ∃ a s₁, x s = .ok a s₁ ∧ f a s₁ = .error e s' := by
  cases run : x s with
  | ok a s₁ =>
    rw [bind_of_ok run]
    constructor
    · exact fun h => .inr ⟨a, s₁, rfl, h⟩
    · rintro (h | ⟨_, _, same, h⟩)
      · cases h
      · cases same
        exact h
  | error e₁ s₁ =>
    rw [bind_of_error run]
    constructor
    · intro h
      cases h
      exact .inl rfl
    · rintro (h | ⟨_, _, same, -⟩)
      · cases h
        rfl
      · cases same

@[simp] theorem pure_apply : (pure a : EStateM ε σ α) s = .ok a s := rfl

theorem pure_eq_ok_iff {a' : α} : (pure a : EStateM ε σ α) s = .ok a' s' ↔ a = a' ∧ s = s' := by
  rw [pure_apply, Result.ok.injEq]

@[simp] theorem throw_ne_ok {e : ε} : (throw e : EStateM ε σ α) s ≠ .ok a s' := by
  intro h
  cases h

end Sequence

/-! ### Handling failures -/

section TryCatch

variable {x : EStateM ε σ α} {handle : ε → EStateM ε σ α}

theorem tryCatch_of_ok (h : x s = .ok a s') : tryCatch x handle s = .ok a s' := by
  show EStateM.tryCatch x handle s = _
  unfold EStateM.tryCatch
  simp only [h]

/-- A failure is handled in the state that it leaves. -/
theorem tryCatch_of_error {e : ε} (h : x s = .error e s') : tryCatch x handle s = handle e s' := by
  show EStateM.tryCatch x handle s = _
  unfold EStateM.tryCatch
  simp only [h]
  rfl

end TryCatch

/-! ### Looking ahead -/

theorem Reading.ahead_eq_ok_iff {x : EStateM ε σ α} :
    Reading.ahead x s = .ok a s' ↔ s' = s ∧ ∃ s₁, x s = .ok a s₁ := by
  unfold Reading.ahead
  constructor
  · intro h
    split at h
    · rename_i a' s₁ hx
      cases h
      exact ⟨rfl, s₁, hx⟩
    · cases h
  · rintro ⟨rfl, s₁, hx⟩
    rw [hx]

theorem Reading.ahead_of_ok {x : EStateM ε σ α} (h : x s = .ok a s₁) :
    Reading.ahead x s = .ok a s := by
  rw [ahead_eq_ok_iff]
  exact ⟨rfl, s₁, h⟩

@[simp] theorem Reading.fail_ne_ok {cause : Cause} {position : Position} :
    (Reading.fail cause position : EStateM Error σ α) s ≠ .ok a s' :=
  throw_ne_ok

/-! ### Up to the last -/

/-- Answers that no failure cuts short end with the last one, if the reader moves on all others. -/
theorem Reading.exists_last {reader : Reading α} {isLast : α → Bool} {c : Cursor} {as : List α}
    (less : ∀ {a c c'}, reader c = .ok a c' → isLast a = false → c'.unread < c.unread)
    (h : Reading.all reader isLast c = (as, none)) :
    ∃ others last, as = others ++ [last] ∧ isLast last = true := by
  fun_induction Reading.all reader isLast c generalizing as with
  | case1 c e c' read => cases h
  | case2 c a c' read last =>
    cases h
    exact ⟨[], a, rfl, last⟩
  | case3 c a c' read more shorter others failure rest ih =>
    cases h
    obtain ⟨others, last, rfl, is⟩ := ih rest
    exact ⟨a :: others, last, rfl, is⟩
  | case4 c a c' read more longer =>
    exact absurd (less read (by simpa using more)) longer

/-! ### Loops -/

section Loop

variable {unread : σ → Nat} {step : α → EStateM ε σ (Option α)}

/-- A loop ends where its step has no result. -/
theorem iterate_of_none (h : step a s = .ok none s') :
    iterate unread step a s = .ok a s' := by
  rw [iterate, h]

/-- A loop goes on with a result that leaves less to read. -/
theorem iterate_of_some {a' : α} (h : step a s = .ok (some a') s₁) (less : unread s₁ < unread s) :
    iterate unread step a s = iterate unread step a' s₁ := by
  rw [iterate, h]
  exact if_pos less

/-- A loop fails with its step. -/
theorem iterate_of_error {e : ε} (h : step a s = .error e s₁) :
    iterate unread step a s = .error e s₁ := by
  rw [iterate, h]

/-- In states where the step does the same the loop does. -/
theorem iterate_of_same (h : step a s = step a s')
    (less : ∀ {a a' s s'}, step a s = .ok (some a') s' → unread s' < unread s) :
    iterate unread step a s = iterate unread step a s' := by
  cases run : step a s' with
  | error e s₁ => rw [iterate_of_error run, iterate_of_error (h.trans run)]
  | ok answer s₁ =>
    cases answer with
    | none => rw [iterate_of_none run, iterate_of_none (h.trans run)]
    | some b =>
      rw [iterate_of_some run (less run), iterate_of_some (h.trans run) (less (h.trans run))]

/-- What holds before a loop that succeeds, and is kept by its step, holds behind it. -/
theorem iterate_invariant {P : α → σ → Prop}
    (next : ∀ {a b s s'}, P a s → step a s = .ok (some b) s' → P b s')
    (last : ∀ {a s s'}, P a s → step a s = .ok none s' → P a s') {a' : α}
    (start : P a s) (h : iterate unread step a s = .ok a' s') : P a' s' := by
  fun_induction iterate unread step a s with
  | case1 a s e s₁ hstep => cases h
  | case2 a s s₁ hstep =>
    cases h
    exact last start hstep
  | case3 a s b s₁ hstep less ih => exact ih (next start hstep) h
  | case4 a s b s₁ hstep more =>
    cases h
    exact next start hstep

/-- The rounds of a loop, each on the result of the one before it, up to the one without a result. -/
inductive Rounds (step : α → EStateM ε σ (Option α)) : α → σ → α → σ → Prop where
  | last {a : α} {s s' : σ} (h : step a s = .ok none s') : Rounds step a s a s'
  | more {a b a' : α} {s s₁ s' : σ} (h : step a s = .ok (some b) s₁)
      (rest : Rounds step b s₁ a' s') : Rounds step a s a' s'

/-- Where every result leaves less to read, a loop is its rounds. -/
theorem iterate_eq_ok_iff {a' : α}
    (less : ∀ {a b s s'}, step a s = .ok (some b) s' → unread s' < unread s) :
    iterate unread step a s = .ok a' s' ↔ Rounds step a s a' s' := by
  constructor
  · intro h
    fun_induction iterate unread step a s with
    | case1 a s e s₁ run => cases h
    | case2 a s s₁ run =>
      cases h
      exact .last run
    | case3 a s b s₁ run _ ih => exact .more run (ih h)
    | case4 a s b s₁ run more => exact absurd (less run) more
  · intro h
    induction h with
    | last run => exact iterate_of_none run
    | more run _ ih => rw [iterate_of_some run (less run), ih]

end Loop

/-! ### One behind the other -/

/-- The items stand one behind the other, in the sense that one item does. -/
inductive InOrder {ι : Type} (stands : σ → ι → σ → Prop) : σ → List ι → σ → Prop where
  | nil (s : σ) : InOrder stands s [] s
  | cons {s s₁ s' : σ} {i : ι} {is : List ι} (head : stands s i s₁) (tail : InOrder stands s₁ is s') :
    InOrder stands s (i :: is) s'

namespace InOrder

variable {ι : Type} {stands : σ → ι → σ → Prop} {i : ι} {is js : List ι}

theorem nil_iff : InOrder stands s [] s' ↔ s = s' := by
  constructor
  · rintro ⟨⟩
    rfl
  · rintro rfl
    exact .nil s

theorem cons_iff : InOrder stands s (i :: is) s' ↔ ∃ s₁, stands s i s₁ ∧ InOrder stands s₁ is s' := by
  constructor
  · rintro ⟨⟩
    exact ⟨_, ‹_›, ‹_›⟩
  · rintro ⟨s₁, head, tail⟩
    exact .cons head tail

theorem append (first : InOrder stands s is s₁) (second : InOrder stands s₁ js s') :
    InOrder stands s (is ++ js) s' := by
  induction first with
  | nil s => exact second
  | cons head _ ih => exact .cons head (ih second)

theorem append_iff :
    InOrder stands s (is ++ js) s' ↔ ∃ s₁, InOrder stands s is s₁ ∧ InOrder stands s₁ js s' := by
  constructor
  · intro h
    induction is generalizing s with
    | nil => exact ⟨s, .nil s, h⟩
    | cons i is ih =>
      obtain ⟨s₁, head, tail⟩ := cons_iff.1 h
      obtain ⟨s₂, first, second⟩ := ih tail
      exact ⟨s₂, .cons head first, second⟩
  · rintro ⟨s₁, first, second⟩
    exact first.append second

/-- Items stand one behind the other and are such as described, each of them. -/
theorem and_iff {P : ι → Prop} :
    InOrder (fun s i s' => stands s i s' ∧ P i) s is s' ↔ InOrder stands s is s' ∧ ∀ i ∈ is, P i := by
  constructor
  · intro h
    induction h with
    | nil s => exact ⟨.nil s, nofun⟩
    | cons head _ ih => exact ⟨.cons head.1 ih.1, List.forall_mem_cons.2 ⟨head.2, ih.2⟩⟩
  · rintro ⟨order, such⟩
    induction order with
    | nil s => exact .nil s
    | cons head _ ih =>
      obtain ⟨first, others⟩ := List.forall_mem_cons.1 such
      exact .cons ⟨head, first⟩ (ih others)

/-- What no item raises none of several does. -/
theorem le (measure : σ → Nat) (one : ∀ {s i s'}, stands s i s' → measure s' ≤ measure s)
    (h : InOrder stands s is s') : measure s' ≤ measure s := by
  induction h with
  | nil s => exact Nat.le_refl _
  | cons head _ ih => exact Nat.le_trans ih (one head)

/-- A loop that adds one item a round adds the items that stand there one behind the other. -/
theorem of_iterate {unread : σ → Nat} {step : List ι → EStateM ε σ (Option (List ι))}
    (R : σ → ι → σ → Prop) (E : σ → σ → Prop)
    (some_iff : ∀ {is js s s'}, step is s = .ok (some js) s' ↔ ∃ i, R s i s' ∧ js = is ++ [i])
    (none_iff : ∀ {is s s'}, step is s = .ok none s' ↔ E s s')
    (less : ∀ {s i s'}, R s i s' → unread s' < unread s) :
    iterate unread step is s = .ok js s' ↔
      ∃ added s₁, InOrder R s added s₁ ∧ E s₁ s' ∧ js = is ++ added := by
  have less' {is js s s'} (h : step is s = .ok (some js) s') : unread s' < unread s := by
    obtain ⟨i, stood, -⟩ := some_iff.1 h
    exact less stood
  rw [iterate_eq_ok_iff less']
  constructor
  · intro h
    induction h with
    | last run => exact ⟨[], _, .nil _, none_iff.1 run, (List.append_nil _).symm⟩
    | more run _ ih =>
      obtain ⟨i, stood, rfl⟩ := some_iff.1 run
      obtain ⟨added, s₁, order, ending, rfl⟩ := ih
      exact ⟨i :: added, s₁, .cons stood order, ending, by simp⟩
  · rintro ⟨added, s₁, order, ending, rfl⟩
    induction order generalizing is with
    | nil s =>
      rw [List.append_nil]
      exact .last (none_iff.2 ending)
    | @cons _ _ _ i _ head _ ih =>
      have rest : Rounds step (is ++ [i]) _ (is ++ [i] ++ _) s' := ih ending
      rw [List.append_assoc] at rest
      exact .more (some_iff.2 ⟨i, head, rfl⟩) rest

/-- So does a loop that passes one item a round and keeps nothing. -/
theorem of_iterate_unit {unread : σ → Nat} {step : Unit → EStateM ε σ (Option Unit)}
    (R : σ → ι → σ → Prop) (E : σ → σ → Prop)
    (some_iff : ∀ {s s'}, step () s = .ok (some ()) s' ↔ ∃ i, R s i s')
    (none_iff : ∀ {s s'}, step () s = .ok none s' ↔ E s s')
    (less : ∀ {s i s'}, R s i s' → unread s' < unread s) :
    iterate unread step () s = .ok () s' ↔ ∃ passed s₁, InOrder R s passed s₁ ∧ E s₁ s' := by
  have less' {a b s s'} (h : step a s = .ok (some b) s') : unread s' < unread s := by
    obtain ⟨i, stood⟩ := some_iff.1 h
    exact less stood
  have passes {a b : Unit} {s s' : σ} (h : Rounds step a s b s') :
      ∃ passed s₁, InOrder R s passed s₁ ∧ E s₁ s' := by
    induction h with
    | last run => exact ⟨[], _, .nil _, none_iff.1 run⟩
    | more run _ ih =>
      obtain ⟨i, stood⟩ := some_iff.1 run
      obtain ⟨passed, s₁, order, ending⟩ := ih
      exact ⟨i :: passed, s₁, .cons stood order, ending⟩
  rw [iterate_eq_ok_iff less']
  constructor
  · exact passes
  · rintro ⟨passed, s₁, order, ending⟩
    induction order with
    | nil s => exact .last (none_iff.2 ending)
    | cons head _ ih => exact .more (some_iff.2 ⟨_, head⟩) (ih ending)

end InOrder

/-! ### Invariants -/

/-- The state a reader ends in, whether it succeeds or fails. -/
def final : Result ε σ α → σ
  | .ok _ s => s
  | .error _ s => s

/-- What holds before a reader holds behind it, whether it succeeds or fails. -/
def Keeps (P : σ → Prop) (x : EStateM ε σ α) : Prop := ∀ s, P s → P (final (x s))

namespace Keeps

variable {P : σ → Prop} {x : EStateM ε σ α} {f : α → EStateM ε σ β}

theorem of_ok (h : Keeps P x) (before : P s) (run : x s = .ok a s') : P s' := by
  have behind := h s before
  rw [run] at behind
  exact behind

theorem of_error {e : ε} (h : Keeps P x) (before : P s) (run : x s = .error e s') : P s' := by
  have behind := h s before
  rw [run] at behind
  exact behind

theorem pure (a : α) : Keeps P (Pure.pure a : EStateM ε σ α) := fun _ before => before

/-- A sequence keeps what its parts keep. The second part may rely on what the first one answers. -/
theorem bind_of {Q : α → Prop} (first : Keeps P x) (answer : ∀ {s a s'}, x s = .ok a s' → Q a)
    (second : ∀ a, Q a → Keeps P (f a)) : Keeps P (x >>= f) := by
  intro s before
  cases run : x s with
  | ok a s₁ =>
    rw [bind_of_ok run]
    exact second a (answer run) s₁ (first.of_ok before run)
  | error e s₁ =>
    rw [bind_of_error run]
    exact first.of_error before run

theorem bind (first : Keeps P x) (second : ∀ a, Keeps P (f a)) : Keeps P (x >>= f) :=
  bind_of (Q := fun _ => True) first (fun _ => trivial) fun a _ => second a

/-- A loop keeps what its step keeps. -/
theorem iterate {unread : σ → Nat} {step : α → EStateM ε σ (Option α)}
    (h : ∀ a, Keeps P (step a)) (a : α) : Keeps P (iterate unread step a) := by
  intro s before
  fun_induction Text.iterate unread step a s with
  | case1 a s e s₁ run => exact (h a).of_error before run
  | case2 a s s₁ run => exact (h a).of_ok before run
  | case3 a s b s₁ run less ih => exact ih ((h a).of_ok before run)
  | case4 a s b s₁ run more => exact (h a).of_ok before run

/-- What holds behind the first round of a loop that succeeds holds behind the loop, if every round
keeps it. -/
theorem of_iterate {unread : σ → Nat} {step : α → EStateM ε σ (Option α)} {a' : α}
    (h : ∀ a, Keeps P (step a)) (run : Text.iterate unread step a s = .ok a' s') :
    ∃ answer s₁, step a s = .ok answer s₁ ∧ (P s₁ → P s') := by
  rw [Text.iterate] at run
  split at run
  · cases run
  · rename_i first
    cases run
    exact ⟨none, s', first, id⟩
  · rename_i b s₁ first
    refine ⟨some b, s₁, first, ?_⟩
    intro behind
    split at run
    · exact (iterate h b).of_ok behind run
    · cases run
      exact behind

end Keeps

/-! ### Failures -/

/-- Whatever the reader fails with is such, wherever it fails. -/
def FailsOnly (P : ε → Prop) (x : EStateM ε σ α) : Prop := ∀ s e s', x s = .error e s' → P e

namespace FailsOnly

variable {P : ε → Prop} {x : EStateM ε σ α} {f : α → EStateM ε σ β}

theorem pure (a : α) : FailsOnly P (Pure.pure a : EStateM ε σ α) := nofun

theorem throw {e : ε} (such : P e) : FailsOnly P (MonadExcept.throw e : EStateM ε σ α) := by
  intro s e' s' failed
  cases failed
  exact such

/-- A sequence fails as its parts do. The second part may rely on what the first one answers. -/
theorem bind_of {Q : α → Prop} (first : FailsOnly P x) (answer : ∀ {s a s'}, x s = .ok a s' → Q a)
    (second : ∀ a, Q a → FailsOnly P (f a)) : FailsOnly P (x >>= f) := by
  intro s e s' failed
  rcases bind_eq_error_iff.1 failed with failed | ⟨a, s₁, run, failed⟩
  · exact first s e s' failed
  · exact second a (answer run) s₁ e s' failed

theorem bind (first : FailsOnly P x) (second : ∀ a, FailsOnly P (f a)) : FailsOnly P (x >>= f) :=
  bind_of (Q := fun _ => True) first (fun _ => trivial) fun a _ => second a

/-- A reader that only looks fails as one that reads. -/
theorem ahead (h : FailsOnly P x) : FailsOnly P (Reading.ahead x) := by
  intro s e s' failed
  unfold Reading.ahead at failed
  split at failed
  · cases failed
  · rename_i run
    cases failed
    exact h s _ _ run

/-- A loop fails as its step does. -/
theorem iterate {unread : σ → Nat} {step : α → EStateM ε σ (Option α)}
    (h : ∀ a, FailsOnly P (step a)) (a : α) : FailsOnly P (iterate unread step a) := by
  intro s e s' failed
  fun_induction Text.iterate unread step a s with
  | case1 a s e₁ s₁ run =>
    cases failed
    exact h a s _ _ run
  | case2 => cases failed
  | case3 a s b s₁ run less ih => exact ih failed
  | case4 => cases failed

end FailsOnly

/-! ### Readers in front of given characters -/

/-- Wherever `cs` is what is left to read, the reader succeeds with an answer as described, and then
`rest` is left. -/
def Reads (x : Reading α) (cs : List Char) (Q : α → Prop) (rest : List Char) : Prop :=
  ∀ c : Cursor, c.rest = cs → ∃ a c', x c = .ok a c' ∧ Q a ∧ c'.rest = rest

namespace Reads

variable {x : Reading α} {f : α → Reading β} {cs cs' rest : List Char} {Q Q' : α → Prop}
  {R : β → Prop}

theorem pure (holds : Q a) : Reads (Pure.pure a) cs Q cs :=
  fun c here => ⟨a, c, rfl, holds, here⟩

theorem bind (first : Reads x cs Q cs') (second : ∀ a, Q a → Reads (f a) cs' R rest) :
    Reads (x >>= f) cs R rest := by
  intro c here
  obtain ⟨a, c₁, read, holds, here⟩ := first c here
  obtain ⟨b, c₂, read', holds', left⟩ := second a holds c₁ here
  exact ⟨b, c₂, bind_eq_ok_iff.2 ⟨a, c₁, read, read'⟩, holds', left⟩

theorem imp (h : Reads x cs Q rest) (imp : ∀ a, Q a → Q' a) : Reads x cs Q' rest := by
  intro c here
  obtain ⟨a, c', read, holds, left⟩ := h c here
  exact ⟨a, c', read, imp a holds, left⟩

theorem map (g : α → β) (h : Reads x cs Q rest) :
    Reads (g <$> x) cs (fun b => ∃ a, Q a ∧ b = g a) rest :=
  h.bind fun a holds => .pure ⟨a, holds, rfl⟩

theorem ahead (h : Reads x cs Q rest) : Reads (Reading.ahead x) cs Q cs := by
  intro c here
  obtain ⟨a, c', read, holds, -⟩ := h c here
  exact ⟨a, c, Reading.ahead_of_ok read, holds, here⟩

/-- A loop whose step looks ahead and has no result ends at once. -/
theorem iterate {unread : Cursor → Nat} {step : α → Reading (Option α)}
    (h : Reads (step a) cs (· = none) cs) : Reads (Text.iterate unread step a) cs (· = a) cs := by
  intro c here
  obtain ⟨_, c', read, rfl, left⟩ := h c here
  exact ⟨a, c', iterate_of_none read, rfl, left⟩

end Reads

end Quaked.Text

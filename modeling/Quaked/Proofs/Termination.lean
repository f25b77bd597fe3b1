import Mathlib.Logic.Function.Iterate
import Quaked.Proofs.Reading

/-!
# Loops and recursions that end by themselves

`iterate` stops at a step that leaves no less to read, so it ends whatever the step is. A loop without
that guard may go round for ever. `Ends step a s n r` says how such a loop runs, if it ends: it calls
its step `n` times and comes to `r`. Where every round leaves less to read the guard is never needed
(`LoopTerminates`).

A reader that an equation `x = F x` gives, with no bound on how deep it goes, may call itself for ever
where it starts. `CallsBelow unread G x` says that `G x` calls `x` only where less is left to read than
where it starts itself. A reader that calls itself so is what its equation comes to, unfolded more often
than there is something left to read (`RecursionTerminates`).

* `exists_ends`: a loop calls its step at most once more than there is of anything its rounds use up.
* `RecursionTerminates.of_below`: calls with less left to read are all that a recursion has to show.
-/

namespace Quaked.Text

open EStateM (Result)

variable {ε σ α β : Type} {unread : σ → Nat}

/-- Where it succeeds the reader leaves less to read. -/
def LeavesLess (unread : σ → Nat) (x : EStateM ε σ α) : Prop :=
  ∀ ⦃a s s'⦄, x s = .ok a s' → unread s' < unread s

/-! ### Loops -/

section Loop

variable {step : α → EStateM ε σ (Option α)}

/-- The step, each time on its last result and for as long as it has one, is called so many times and
comes to the result. Nothing else stops it. -/
inductive Ends (step : α → EStateM ε σ (Option α)) : α → σ → Nat → Result ε σ α → Prop where
  | last {a : α} {s s' : σ} (h : step a s = .ok none s') : Ends step a s 1 (.ok a s')
  | failed {a : α} {e : ε} {s s' : σ} (h : step a s = .error e s') : Ends step a s 1 (.error e s')
  | more {a b : α} {s s₁ : σ} {n : Nat} {r : Result ε σ α} (h : step a s = .ok (some b) s₁)
    (rest : Ends step b s₁ n r) : Ends step a s (n + 1) r

/-- A loop whose rounds leave less to read ends, and calls its step at most once more than there is of
anything that every round uses up. -/
theorem exists_ends (measure : σ → Nat)
    (less : ∀ {a b s s'}, step a s = .ok (some b) s' → unread s' < unread s)
    (fewer : ∀ {a b s s'}, step a s = .ok (some b) s' → measure s' < measure s) (a : α) (s : σ) :
    ∃ n ≤ measure s + 1, Ends step a s n (iterate unread step a s) := by
  fun_induction iterate unread step a s with
  | case1 a s e s₁ run => exact ⟨1, Nat.le_add_left 1 _, .failed run⟩
  | case2 a s s₁ run => exact ⟨1, Nat.le_add_left 1 _, .last run⟩
  | case3 a s b s₁ run _ ih =>
    obtain ⟨n, most, ends⟩ := ih
    exact ⟨n + 1, Nat.succ_le_succ (Nat.le_trans most (fewer run)), .more run ends⟩
  | case4 a s b s₁ run more => exact absurd (less run) more

/-- Every round leaves less to read, so the loop ends without its guard, with at most one call more than
there is to read. -/
structure LoopTerminates (unread : σ → Nat) (step : α → EStateM ε σ (Option α)) : Prop where
  shrinks : ∀ {a b s s'}, step a s = .ok (some b) s' → unread s' < unread s
  ends : ∀ a s, ∃ n ≤ unread s + 1, Ends step a s n (iterate unread step a s)

theorem LoopTerminates.of_shrinks
    (less : ∀ {a b s s'}, step a s = .ok (some b) s' → unread s' < unread s) :
    LoopTerminates unread step :=
  ⟨less, exists_ends unread less less⟩

end Loop

/-! ### Recursions -/

section Recursion

variable {F : EStateM ε σ α → EStateM ε σ α} {x : EStateM ε σ α}

/-- What `G` makes of the reader calls it only where less is left to read than where it starts itself:
any other reader that does the same there serves as well, whatever it does elsewhere. -/
def CallsBelow (unread : σ → Nat) (G : EStateM ε σ α → EStateM ε σ β) (x : EStateM ε σ α) : Prop :=
  ∀ y s, (∀ t, unread t < unread s → y t = x t) → G y s = G x s

/-- The reader is given by its equation alone: it calls itself only where less is left to read, and so
the equation, unfolded more often than there is something left, gives what it does, whatever the
innermost call does. -/
structure RecursionTerminates (unread : σ → Nat) (F : EStateM ε σ α → EStateM ε σ α)
    (x : EStateM ε σ α) : Prop where
  again : F x = x
  below : CallsBelow unread F x
  ends : ∀ bottom n s, unread s < n → F^[n] bottom s = x s

theorem RecursionTerminates.of_below (again : F x = x) (below : CallsBelow unread F x) :
    RecursionTerminates unread F x := by
  refine ⟨again, below, fun bottom n => ?_⟩
  induction n with
  | zero => exact fun _ less => absurd less (Nat.not_lt_zero _)
  | succ n ih =>
    intro s less
    rw [Function.iterate_succ_apply',
      below _ s fun t deeper => ih t (Nat.lt_of_lt_of_le deeper (Nat.le_of_lt_succ less)), again]

end Recursion
end Quaked.Text

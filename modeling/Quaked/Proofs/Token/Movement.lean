import Quaked.Proofs.Token.Runs

/-!
# Readers move forward

A reader never goes back in a text: where it ends, whether it succeeds or fails, some characters of
what was left have been skipped. So what skipping keeps, reading a token keeps (`Token.keeps_next`).
-/

namespace Quaked

open Text

/-- What skipping characters keeps. -/
def Skippable (P : Cursor → Prop) : Prop := ∀ c n, P c → P (c.skip n)

/-- To have no more left to read than given is kept. -/
theorem skippable_unread_le (n : Nat) : Skippable fun c => c.unread ≤ n := by
  intro c m before
  rw [Cursor.unread_skip]
  exact Nat.le_trans (Nat.sub_le _ _) before

/-- So is to have less left to read than given. -/
theorem skippable_unread_lt (n : Nat) : Skippable fun c => c.unread < n := by
  intro c m before
  rw [Cursor.unread_skip]
  exact Nat.lt_of_le_of_lt (Nat.sub_le _ _) before

theorem Token.keeps_next {P : Cursor → Prop} (skips : Skippable P) : Keeps P next := by
  intro c before
  have start := skips c (gap c.rest) before
  unfold next Reading.token
  dsimp only
  split
  · exact skips _ _ start
  · exact start
  · exact skips _ _ start

end Quaked

import Quaked.Definition.Model
import Quaked.Proofs.Positional.InStep
import Quaked.Proofs.Selector.InStep

/-!
# Reading a selector moves forward

A reader that is in step with itself at every cursor keeps what skipping keeps. So does the lexer of
selectors, and so does either grammar (`SelectorGrammar.keeps_read`): a selector leaves no more to
read than there was (`SelectorGrammar.unread_le`).
-/

namespace Quaked

open Text

variable {P : Cursor → Prop}

/-- A reader that is in step with itself wherever a cursor is such as described keeps it so. -/
theorem Text.InStep.keeps {E : Error → Error → Prop} {α : Type} {A : α → α → Prop} {x : Reading α}
    (h : InStep (Only P) E A x x) : Keeps P x :=
  fun c before => (h c c ⟨rfl, before⟩).final.2

/-- What skipping characters keeps, reading a token of a selector keeps. -/
theorem Selector.Token.keeps_next (skips : Skippable P) : Keeps P Selector.Token.next :=
  (inStep_next (aligned_only skips)).keeps

/-- At aligned cursors either grammar reads the same selector. -/
theorem SelectorGrammar.inStep_read {R : Cursor → Cursor → Prop} (aligned : Aligned R)
    (grammar : SelectorGrammar) : InStep R (Blames R) Eq grammar.read grammar.read := by
  cases grammar with
  | expression =>
    intro c d related
    exact (Selector.Grammar.inStep_expression aligned c d related).mono id Selector.blames id
  | positional => exact Positional.inStep_expression aligned

/-- What skipping characters keeps, reading a selector of either grammar keeps. -/
theorem SelectorGrammar.keeps_read (skips : Skippable P) (grammar : SelectorGrammar) :
    Keeps P grammar.read :=
  (grammar.inStep_read (aligned_only skips)).keeps

/-- A selector leaves no more to read than there was. -/
theorem SelectorGrammar.unread_le {grammar : SelectorGrammar} {e : Selector} {c c' : Cursor}
    (h : grammar.read c = .ok e c') : c'.unread ≤ c.unread :=
  (grammar.keeps_read (skippable_unread_le c.unread)).of_ok (Nat.le_refl _) h

end Quaked

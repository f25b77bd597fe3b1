import Quaked.Proofs.Reading
import Quaked.Text.Lookahead

/-!
# What is kept makes no difference

A lookahead is *coherent* if the token it keeps is the one that would be made at its cursor. Then it
reads like one that keeps nothing, and looking at a token says which one is read next and leaves the
cursor where it is. Consuming and looking keep it coherent; whoever moves the cursor starts over
with nothing kept, which is coherent as well.

* `Coherent.next_eq`, `Coherent.peek_eq`: only the cursor counts.
* `Coherent.next_of_peek`: what is looked at is read next.
-/

namespace Quaked.Text.Lookahead

variable {τ : Type} {make : Reading τ} {l l' : Lookahead τ} {t : τ} {P : Cursor → Prop}

/-- What is kept is what would be made at the cursor. -/
def Coherent (make : Reading τ) (l : Lookahead τ) : Prop :=
  ∀ t behind, l.pending = some (t, behind) → make l.cursor = .ok t behind

theorem coherent_fresh (c : Cursor) : Coherent make { cursor := c } := by
  intro t behind kept
  cases kept

/-- Whatever is made of a token and the cursor behind it, there is one if the token can be made. -/
theorem made_eq_ok_iff {c : Cursor} (state : τ → Cursor → Lookahead τ) :
    (match make c with
      | .ok u behind => .ok u (state u behind)
      | .error e behind => .error e { cursor := behind } : EStateM.Result Error (Lookahead τ) τ) =
        .ok t l' ↔
      ∃ behind, make c = .ok t behind ∧ l' = state t behind := by
  cases make c with
  | ok u behind =>
    constructor
    · intro same
      cases same
      exact ⟨behind, rfl, rfl⟩
    · rintro ⟨_, same, rfl⟩
      cases same
      rfl
  | error e behind =>
    constructor
    · intro same
      cases same
    · rintro ⟨_, same, -⟩
      cases same

namespace Coherent

variable (h : Coherent make l)
include h

/-- A token is read as if none were kept. -/
theorem next_eq : next make l = next make { cursor := l.cursor } := by
  obtain ⟨c, pending⟩ := l
  cases pending with
  | none => rfl
  | some kept =>
    obtain ⟨t, behind⟩ := kept
    have made : make c = .ok t behind := h t behind rfl
    simp only [next, made]

/-- A token is looked at as if none were kept. -/
theorem peek_eq : peek make l = peek make { cursor := l.cursor } := by
  obtain ⟨c, pending⟩ := l
  cases pending with
  | none => rfl
  | some kept =>
    obtain ⟨t, behind⟩ := kept
    have made : make c = .ok t behind := h t behind rfl
    simp only [peek, made]

theorem next_eq_ok_iff :
    next make l = .ok t l' ↔ ∃ c, make l.cursor = .ok t c ∧ l' = { cursor := c } := by
  rw [h.next_eq]
  exact made_eq_ok_iff fun _ c => { cursor := c }

theorem peek_eq_ok_iff :
    peek make l = .ok t l' ↔
      ∃ c, make l.cursor = .ok t c ∧ l' = { cursor := l.cursor, pending := some (t, c) } := by
  rw [h.peek_eq]
  exact made_eq_ok_iff fun u c => { cursor := l.cursor, pending := some (u, c) }

/-- What is looked at is what is read next, before looking and behind it, and looking does not move
the cursor. -/
theorem next_of_peek (shown : peek make l = .ok t l') :
    l'.cursor = l.cursor ∧ Coherent make l' ∧ next make l' = next make l ∧
      ∃ l'', next make l = .ok t l'' := by
  obtain ⟨c, made, rfl⟩ := h.peek_eq_ok_iff.1 shown
  have kept : Coherent make { cursor := l.cursor, pending := some (t, c) } := by
    intro u behind same
    cases same
    exact made
  refine ⟨rfl, kept, ?_, ⟨_, h.next_eq_ok_iff.2 ⟨c, made, rfl⟩⟩⟩
  rw [kept.next_eq, h.next_eq]

end Coherent

/-- Consuming a token keeps a lookahead coherent, and of its cursor what making a token keeps. -/
theorem keeps_next (keeps : Keeps P make) :
    Keeps (fun l => P l.cursor ∧ Coherent make l) (next make) := by
  rintro l ⟨before, coherent⟩
  have behind := keeps l.cursor before
  rw [coherent.next_eq]
  unfold next
  dsimp only
  cases made : make l.cursor with
  | ok t c =>
    rw [made] at behind
    exact ⟨behind, coherent_fresh c⟩
  | error e c =>
    rw [made] at behind
    exact ⟨behind, coherent_fresh c⟩

/-- So does looking at a token. -/
theorem keeps_peek (keeps : Keeps P make) :
    Keeps (fun l => P l.cursor ∧ Coherent make l) (peek make) := by
  rintro l ⟨before, coherent⟩
  have behind := keeps l.cursor before
  cases shown : peek make l with
  | ok t l' =>
    obtain ⟨same, coherent', -⟩ := coherent.next_of_peek shown
    refine ⟨?_, coherent'⟩
    show P l'.cursor
    rw [same]
    exact before
  -- a look that fails leaves what a failing read leaves
  | error e l' =>
    rw [coherent.peek_eq] at shown
    unfold peek at shown
    dsimp only at shown
    cases made : make l.cursor with
    | ok t c =>
      rw [made] at shown
      cases shown
    | error e c =>
      rw [made] at shown behind
      cases shown
      exact ⟨behind, coherent_fresh c⟩

end Quaked.Text.Lookahead
